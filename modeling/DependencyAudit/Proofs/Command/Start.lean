import DependencyAudit.Command.Run
import DependencyAudit.Proofs.Settings.WellFormed
import DependencyAudit.Proofs.Verdict.Sizes

/-!
The start of a run. Its tables are made of the settings once these are loaded, before the
command is looked at, so settings that give no tables end every run that loads them.
-/
namespace DependencyAudit

section Loaded
variable {files : FileTree} {env : Environment} {p : Path} {settings : Fields}

theorem tabled_of_load (h : Settings.load files env p = .ok settings) : Tabled settings := by
  intro value found
  obtain ⟨entries, found'⟩ :=
    Settings.hasTable_iff.1 (Settings.wellFormed_of_load h).classification
  cases found.symm.trans found'
  rfl

/-- The check of settings that are loaded leaves a table of sizes. -/
theorem at?_sizes_of_load (h : Settings.load files env p = .ok settings) :
    (Tree.table settings).at? ["classification", "sizes"] =
      some (.table (classified settings "sizes")) := by
  obtain ⟨entries, found⟩ := (Settings.wellFormed_of_load h).sizes
  rw [classified, found]

end Loaded

theorem Tables.exists_error {settings : Fields} {f : SettingsFault}
    (h : SizeTable.ofSettings settings = .error f) : ∃ f, ofSettings settings = .error f := by
  rw [ofSettings, h]
  cases Families.ofSettings settings <;> exact ⟨_, rfl⟩

namespace Command
variable {files : FileTree} {env : Environment} {args : List String} {p : Path} {settings : Fields}

/-- Options with which a run, whatever its command, loads the settings at a path. -/
structure Opens (env : Environment) (args : List String) (p : Path) (general : General) : Prop where
  parted : ∃ command, split args = .ok (general, command)
  work : general.help = false ∧ general.version = false
  output : (general.json && general.plain) = false
  path : Session.settingsPath env general = .ok p

theorem Opens.run_of_no_tables {general : General} {f : SettingsFault}
    (opens : Opens env args p general) (loaded : Settings.load files env p = .ok settings)
    (refused : Tables.ofSettings settings = .error f) :
    run env files args = .stopped files (.crash (.settings f)) := by
  obtain ⟨command, parted⟩ := opens.parted
  have begun : begin env files general = .error (.crash (.settings f)) := by
    simp only [begin, opens.work, opens.output, opens.path, Bool.false_eq_true, if_false,
      Session.load, loaded, refused, Except.mapError, bind, Except.bind]
  have prepared : prepare env files args = .error (.crash (.settings f)) := by
    simp only [prepare, parted, begun, Except.mapError, bind, Except.bind]
  rw [run, prepared]

/-- Settings that are loaded give sizes unless an entry is a whole number too far from zero. The
sizes are the entries that count, in order and before the built-in ones. Without sizes every run
that loads the settings crashes. -/
theorem sizes_of_load (loaded : Settings.load files env p = .ok settings) :
    ∃ entries, (Tree.table settings).at? ["classification", "sizes"] = some (.table entries) ∧
      ((∀ e ∈ entries, ¬ Oversized e.2) → SizeTable.ofSettings settings =
        .ok (entries.filterMap SizeTable.kept? ++ SizeTable.builtIn)) ∧
      ((∃ e ∈ entries, Oversized e.2) →
        SizeTable.ofSettings settings = .error (.tooLarge ⟨⟩) ∧
        ∀ args general, Opens env args p general →
          ∃ f, run env files args = .stopped files (.crash (.settings f))) := by
  refine ⟨classified settings "sizes", at?_sizes_of_load loaded, fun small => ?_, ?_⟩
  · rw [SizeTable.ofSettings_eq (tabled_of_load loaded),
      SizeTable.ofEntries_eq fun e mem => exists_sizeOf?_iff.2 (small e mem)]
    rfl
  · rintro ⟨e, mem, large⟩
    have refused : SizeTable.ofSettings settings = .error (.tooLarge ⟨⟩) := by
      rw [SizeTable.ofSettings_eq (tabled_of_load loaded),
        SizeTable.ofEntries_eq_error ⟨e, mem, mt exists_sizeOf?_iff.1 (not_not.2 large)⟩]
      rfl
    refine ⟨refused, fun args general opens => ?_⟩
    obtain ⟨f, refused⟩ := Tables.exists_error refused
    exact ⟨f, opens.run_of_no_tables loaded refused⟩

section Files

/-- A directory with one file, of ASCII characters, in it. -/
def besideSettings (name : String) (text : List Char) : FileTree :=
  [(["work"], .directory), (["work", name], .file (text.map fun c => UInt8.ofNat c.toNat))]

/-- Entries that are no numbers, or negative, are left out of the sizes. -/
theorem sizes_of_load_of_mixed :
    let files := besideSettings "c.toml"
      "[classification.sizes]\nGuava = '7'\nokio = -1\nzip = []\nroom = 9\n".toList
    let env : Environment := { directory := ["work"] }
    ∃ settings, Settings.load files env ⟨"/", ["work", "c.toml"]⟩ = .ok settings ∧
      SizeTable.ofSettings settings = .ok ([("guava", 7), ("room", 9)] ++ SizeTable.builtIn) := by
  intro files env
  have read : ((Settings.load files env ⟨"/", ["work", "c.toml"]⟩).toOption.any
      fun settings => decide ((∀ e ∈ classified settings "sizes", ¬ Oversized e.2) ∧
        (classified settings "sizes").filterMap SizeTable.kept? = [("guava", 7), ("room", 9)])) =
      true := by decide +kernel
  clear_value files
  obtain ⟨settings, loaded, read⟩ := exists_of_any_toOption read
  obtain ⟨small, kept⟩ := of_decide_eq_true read
  obtain ⟨entries, found, sizes, -⟩ := sizes_of_load loaded
  obtain rfl : classified settings "sizes" = entries := by rw [classified, found]
  refine ⟨settings, loaded, ?_⟩
  rw [sizes small, kept]

/-- A number of 401 digits among the sizes: the settings are loaded, and a run with them crashes. -/
theorem sizes_refused_of_digits :
    let digits := '1' :: List.replicate 400 '0'
    let files := besideSettings "c.json"
      ("\x7b\"classification\":\x7b\"sizes\":\x7b\"guava\":".toList ++ digits ++
        "\x7d\x7d\x7d".toList)
    let env : Environment := { directory := ["work"] }
    let crash : Crash := .settings (.tooLarge ⟨⟩)
    (∃ settings, Settings.load files env ⟨"/", ["work", "c.json"]⟩ = .ok settings ∧
      SizeTable.ofSettings settings = .error (.tooLarge ⟨⟩)) ∧
    run env files ["--config", "c.json", "declarations", "build.gradle"] =
      .stopped files (.crash crash) ∧
    crash.message = "int too large to convert to float" := by
  intro digits files env crash
  have read : ((Settings.load files env ⟨"/", ["work", "c.json"]⟩).toOption.any fun settings =>
      decide (SizeTable.ofSettings settings = .error (.tooLarge ⟨⟩) ∧
        Families.ofSettings settings = .ok .builtIn)) = true := by decide +kernel
  have parted : split ["--config", "c.json", "declarations", "build.gradle"] =
      .ok (⟨false, false, false, false, false, false, some ⟨"", ["c.json"]⟩⟩,
        some (.declarations, ["build.gradle"])) := by rfl
  clear_value files
  obtain ⟨settings, loaded, read⟩ := exists_of_any_toOption read
  obtain ⟨sizes, families⟩ := of_decide_eq_true read
  have refused : Tables.ofSettings settings = .error (.tooLarge ⟨⟩) := by
    rw [Tables.ofSettings, families, sizes]
    rfl
  have opens : Opens env ["--config", "c.json", "declarations", "build.gradle"]
      ⟨"/", ["work", "c.json"]⟩ _ := ⟨⟨_, parted⟩, ⟨rfl, rfl⟩, rfl, rfl⟩
  exact ⟨⟨settings, loaded, sizes⟩, opens.run_of_no_tables loaded refused, rfl⟩

end Files
end Command
end DependencyAudit
