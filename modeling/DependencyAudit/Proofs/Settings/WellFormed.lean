import DependencyAudit.Command.Session
import DependencyAudit.Proofs.Json.Reading
import DependencyAudit.Proofs.Settings.Load
import DependencyAudit.Proofs.Toml.Reading

/-!
Settings that are loaded have all their sections as tables, name a known mode and a known
format, and hold what the file says. Whatever else there is in a file is refused as a fault of
the settings, but for two kinds of input that end the run in another way: the name of a file
that is longer than the file system takes, and a mode or a format that is, or holds, a number
with more digits than can be shown.
-/
namespace DependencyAudit.Settings

def HasTable (settings : Fields) (way : List String) : Prop :=
  ∃ entries, (Tree.table settings).at? way = some (.table entries)

def HasName (settings : Fields) (way names : List String) : Prop :=
  ∃ name ∈ names, (Tree.table settings).at? way = some (.text name)

def HasLong (settings : Fields) (way : List String) : Prop :=
  ∃ value, (Tree.table settings).at? way = some value ∧ value.isLong = true

structure Sectioned (settings : Fields) : Prop where
  classification : HasTable settings ["classification"]
  report : HasTable settings ["report"]
  evidence : HasTable settings ["evidence"]
  families : HasTable settings ["classification", "families"]
  sizes : HasTable settings ["classification", "sizes"]

structure WellFormed (settings : Fields) : Prop extends Sectioned settings where
  mode : HasName settings ["classification", "mode"] modes
  format : HasName settings ["report", "output_format"] formats

/-- The first choice that is not among those offered cannot be shown. -/
inductive Unshown (settings : Fields) : Prop
  | mode : Sectioned settings → HasLong settings ["classification", "mode"] → Unshown settings
  | format : Sectioned settings → HasName settings ["classification", "mode"] modes →
      HasLong settings ["report", "output_format"] → Unshown settings

section Check
variable {settings fields entries : Fields} {names : List String} {refused : Tree → Cause}
  {value : Tree} {cause : Cause} {key name : String}

theorem hasTable_iff :
    HasTable settings [key] ↔ ∃ entries, settings.find? key = some (.table entries) := by
  refine exists_congr fun entries => ?_
  simp only [Tree.at?]
  cases settings.find? key <;> rfl

theorem hasTable_iff_of_find? {part : String} (h : settings.find? part = some (.table fields)) :
    HasTable settings [part, key] ↔ ∃ entries, fields.find? key = some (.table entries) := by
  simp only [HasTable, at?_of_find? h]

theorem requireTable_cases (name key : String) (fields : Fields) :
    requireTable name key fields = .error (.notSection name) ∨
      ∃ entries, requireTable name key fields = .ok entries := by
  unfold requireTable
  split
  case h_1 => exact .inr ⟨_, rfl⟩
  case h_2 => exact .inl rfl

theorem choose_eq_error (h : choose names refused value = .error cause) :
    (¬ ∃ name ∈ names, value = .text name) ∧
      cause = if value.isLong then .longInteger ⟨⟩ else refused value := by
  unfold choose at h
  split at h
  case isTrue => cases h
  case isFalse unknown =>
    cases h
    exact ⟨fun known => unknown (isOneOf_iff.2 known), rfl⟩

def choice (settings : Fields) (way : List String) : Tree :=
  ((Tree.table settings).at? way).getD .null

theorem hasName_iff {way : List String} :
    HasName settings way names ↔ ∃ name ∈ names, choice settings way = .text name := by
  unfold HasName choice
  cases (Tree.table settings).at? way <;> simp

theorem hasLong_iff {way : List String} :
    HasLong settings way ↔ (choice settings way).isLong = true := by
  unfold HasLong choice
  cases (Tree.table settings).at? way <;> simp [Tree.isLong, Scalar.isLong]

/-- What is chosen, once all sections are there. -/
def choices (settings : Fields) : Except Cause Unit := do
  choose modes .mode (choice settings ["classification", "mode"])
  choose formats .format (choice settings ["report", "output_format"])

theorem check_of_sectioned (so : Sectioned settings) : check settings = choices settings := by
  obtain ⟨classification, hclassification⟩ := hasTable_iff.1 so.classification
  obtain ⟨report, hreport⟩ := hasTable_iff.1 so.report
  obtain ⟨evidence, hevidence⟩ := hasTable_iff.1 so.evidence
  obtain ⟨families, hfamilies⟩ := (hasTable_iff_of_find? hclassification).1 so.families
  obtain ⟨sizes, hsizes⟩ := (hasTable_iff_of_find? hclassification).1 so.sizes
  rw [check, choices, choice, choice, at?_of_find? hclassification, at?_of_find? hreport,
    requireTable_eq_ok_iff.2 hclassification, requireTable_eq_ok_iff.2 hreport,
    requireTable_eq_ok_iff.2 hevidence]
  simp only [bind, Except.bind, requireTable_eq_ok_iff.2 hfamilies,
    requireTable_eq_ok_iff.2 hsizes, valueOf]

theorem missing_or_sectioned (settings : Fields) :
    (∃ name, check settings = .error (.notSection name)) ∨ Sectioned settings := by
  obtain missing | ⟨classification, hclassification⟩ :=
    requireTable_cases "classification" "classification" settings
  · exact .inl ⟨_, by rw [check, missing]; rfl⟩
  obtain missing | ⟨report, hreport⟩ := requireTable_cases "report" "report" settings
  · exact .inl ⟨_, by rw [check, hclassification, missing]; rfl⟩
  obtain missing | ⟨evidence, hevidence⟩ := requireTable_cases "evidence" "evidence" settings
  · exact .inl ⟨_, by rw [check, hclassification, hreport, missing]; rfl⟩
  obtain missing | ⟨families, hfamilies⟩ :=
    requireTable_cases "classification.families" "families" classification
  · refine .inl ⟨"classification.families", ?_⟩
    rw [check, hclassification, hreport, hevidence]
    simp only [bind, Except.bind, missing]
  obtain missing | ⟨sizes, hsizes⟩ :=
    requireTable_cases "classification.sizes" "sizes" classification
  · refine .inl ⟨"classification.sizes", ?_⟩
    rw [check, hclassification, hreport, hevidence]
    simp only [bind, Except.bind, hfamilies, missing]
  have inside {key : String} : HasTable settings ["classification", key] ↔
      ∃ entries, classification.find? key = some (.table entries) :=
    hasTable_iff_of_find? (requireTable_eq_ok_iff.1 hclassification)
  exact .inr
    { classification := hasTable_iff.2 ⟨_, requireTable_eq_ok_iff.1 hclassification⟩
      report := hasTable_iff.2 ⟨_, requireTable_eq_ok_iff.1 hreport⟩
      evidence := hasTable_iff.2 ⟨_, requireTable_eq_ok_iff.1 hevidence⟩
      families := inside.2 ⟨_, requireTable_eq_ok_iff.1 hfamilies⟩
      sizes := inside.2 ⟨_, requireTable_eq_ok_iff.1 hsizes⟩ }

theorem choices_eq_ok_iff :
    choices settings = .ok () ↔ HasName settings ["classification", "mode"] modes ∧
      HasName settings ["report", "output_format"] formats := by
  rw [hasName_iff, hasName_iff]
  constructor
  · intro h
    obtain ⟨_, mode, format⟩ := bind_eq_ok_iff.1 h
    exact ⟨choose_eq_ok_iff.1 mode, choose_eq_ok_iff.1 format⟩
  · rintro ⟨mode, format⟩
    exact bind_eq_ok_iff.2 ⟨(), choose_eq_ok_iff.2 mode, choose_eq_ok_iff.2 format⟩

theorem not_hasLong_of_hasName {way : List String} (h : HasName settings way names) :
    ¬ HasLong settings way := by
  obtain ⟨name, _, named⟩ := hasName_iff.1 h
  rw [hasLong_iff, named]
  exact nofun

/-- A choice is refused in one of two ways. -/
theorem choices_eq_error (so : Sectioned settings) (h : choices settings = .error cause) :
    Unshown settings ∧ cause = .longInteger ⟨⟩ ∨
      ¬ Unshown settings ∧ ∃ value, cause = .mode value ∨ cause = .format value := by
  obtain refused | ⟨_, known, refused⟩ := bind_eq_error_iff.1 h
  · obtain ⟨unknown, rfl⟩ := choose_eq_error refused
    rw [← hasName_iff] at unknown
    split
    case isTrue long => exact .inl ⟨.mode so (hasLong_iff.2 long), rfl⟩
    case isFalse short =>
      refine .inr ⟨fun unshown => ?_, _, .inl rfl⟩
      cases unshown with
      | mode _ long => exact short (hasLong_iff.1 long)
      | format _ known _ => exact unknown known
  · obtain ⟨unknown, rfl⟩ := choose_eq_error refused
    have known := hasName_iff.2 (choose_eq_ok_iff.1 known)
    split
    case isTrue long => exact .inl ⟨.format so known (hasLong_iff.2 long), rfl⟩
    case isFalse short =>
      refine .inr ⟨fun unshown => ?_, _, .inr rfl⟩
      cases unshown with
      | mode _ long => exact not_hasLong_of_hasName known long
      | format _ _ long => exact short (hasLong_iff.1 long)

theorem check_eq_ok_iff : check settings = .ok () ↔ WellFormed settings := by
  constructor
  · intro h
    obtain ⟨name, missing⟩ | so := missing_or_sectioned settings
    · rw [missing] at h
      cases h
    · rw [check_of_sectioned so] at h
      obtain ⟨mode, format⟩ := choices_eq_ok_iff.1 h
      exact ⟨so, mode, format⟩
  · rintro ⟨so, mode, format⟩
    rw [check_of_sectioned so]
    exact choices_eq_ok_iff.2 ⟨mode, format⟩

/-- Settings that are refused are refused in a way that is told, unless a choice cannot be shown. -/
theorem check_eq_error (h : check settings = .error cause) :
    Unshown settings ∧ cause = .longInteger ⟨⟩ ∨
      ¬ Unshown settings ∧ ((∃ name, cause = .notSection name) ∨
        ∃ value, cause = .mode value ∨ cause = .format value) := by
  obtain ⟨name, missing⟩ | so := missing_or_sectioned settings
  · refine .inr ⟨fun unshown => ?_, .inl ⟨name, ?_⟩⟩
    · have so : Sectioned settings := by cases unshown <;> assumption
      rw [check_of_sectioned so] at missing
      obtain ⟨_, same⟩ | ⟨_, _, same | same⟩ := choices_eq_error so missing <;> cases same
    · rw [missing] at h
      cases h
      rfl
  · rw [check_of_sectioned so] at h
    exact (choices_eq_error so h).imp_right fun ⟨shown, refused⟩ => ⟨shown, .inr refused⟩

end Check

section Load
variable {tree : FileTree} {env : Environment} {p : Path} {document : Fields} {cause : Cause}

/-- What the file that a path leads to gives, if it can be read. -/
def Gives (tree : FileTree) (env : Environment) (p : Path) (document : Fields) : Prop :=
  ∃ text, tree.readText env p = .ok text ∧ decode p text = .ok document

/-- The two kinds of input that end a run in another way than by a fault of the settings. -/
inductive Untold (tree : FileTree) (env : Environment) (p : Path) : Prop
  | name : tree.placeOf env p = .error .nameTooLong → Untold tree env p
  | choice (document : Fields) : Gives tree env p document →
      Unshown (Fields.over defaults document) → Untold tree env p

/-- A fault is told as one of the settings. -/
def Told (f : Fault) : Prop :=
  Command.Session.settingsStop f = .said 2 s!"Config error: {f.message}"

theorem crash_ne_said {c : Command.Crash} {code : Nat} {message : String} :
    Command.Stop.crash c ≠ .said code message :=
  fun same => nomatch congrArg Command.Stop.ending same

theorem told_iff :
    Told ⟨cause, p⟩ ↔ cause ≠ .longInteger ⟨⟩ ∧ ∀ f, cause ≠ .unusable f := by
  rw [Told, Command.Session.settingsStop]
  split
  case h_1 f long => exact iff_of_false crash_ne_said fun told => told.1 long
  case h_2 f unusable => exact iff_of_false crash_ne_said fun told => told.2 f unusable
  case h_3 short usable => exact iff_of_true rfl ⟨short ⟨⟩, usable⟩

theorem find_eq_error {f : FileFault} (h : tree.find env p = .error f) :
    tree.placeOf env p = .error .nameTooLong := by
  unfold FileTree.find at h
  split at h
  case h_1 => cases h
  case h_2 long => exact long
  case h_3 => cases h

theorem find_of_tooLong (h : tree.placeOf env p = .error .nameTooLong) :
    tree.find env p = .error ⟨.nameTooLong, p⟩ := by
  simp only [FileTree.find, h]

theorem keyedOnce_decode {text : List Char} (h : decode p text = .ok document) :
    (Tree.table document).KeyedOnce := by
  unfold decode at h
  split at h
  case isTrue => exact Toml.keyedOnce_read (mapError_eq_ok_iff.1 h)
  case isFalse =>
    split at h
    case h_1 fields read =>
      cases h
      exact Json.keyedOnce_read read
    all_goals cases h

theorem decode_eq_error {text : List Char} (h : decode p text = .error cause) :
    cause ≠ .longInteger ⟨⟩ ∧ ∀ f, cause ≠ .unusable f := by
  unfold decode at h
  split at h
  case isTrue =>
    obtain ⟨_, _, rfl⟩ := mapError_eq_error_iff.1 h
    exact ⟨nofun, nofun⟩
  case isFalse => split at h <;> cases h <;> exact ⟨nofun, nofun⟩

theorem Gives.unique {other : Fields} (h : Gives tree env p document)
    (h' : Gives tree env p other) : document = other := by
  obtain ⟨text, read, decoded⟩ := h
  obtain ⟨_, same, decoded'⟩ := h'
  cases read.symm.trans same
  exact Except.ok.inj (decoded.symm.trans decoded')

theorem ofFile_eq_ok_iff {settings : Fields} :
    ofFile tree env p = .ok settings ↔
      ∃ document, Gives tree env p document ∧ settings = Fields.over defaults document ∧
        WellFormed settings := by
  constructor
  · intro h
    obtain ⟨text, read, h⟩ := bind_eq_ok_iff.1 h
    obtain ⟨document, decoded, h⟩ := bind_eq_ok_iff.1 h
    obtain ⟨_, checked, same⟩ := bind_eq_ok_iff.1 h
    cases same
    exact ⟨document, ⟨text, mapError_eq_ok_iff.1 read, decoded⟩, rfl, check_eq_ok_iff.1 checked⟩
  · rintro ⟨document, ⟨text, read, decoded⟩, rfl, wellFormed⟩
    refine bind_eq_ok_iff.2 ⟨text, mapError_eq_ok_iff.2 read, ?_⟩
    refine bind_eq_ok_iff.2 ⟨document, decoded, ?_⟩
    exact bind_eq_ok_iff.2 ⟨(), check_eq_ok_iff.2 wellFormed, rfl⟩

theorem wellFormed_of_load {settings : Fields} (h : load tree env p = .ok settings) :
    WellFormed settings := by
  unfold load at h
  split at h
  case h_1 => cases h
  case h_2 =>
    cases h
    exact check_eq_ok_iff.1 rfl
  case h_3 =>
    obtain ⟨_, _, _, wellFormed⟩ := ofFile_eq_ok_iff.1 (mapError_eq_ok_iff.1 h)
    exact wellFormed

/-- A file is refused in a way that is told, unless a choice in it cannot be shown. -/
theorem ofFile_eq_error (h : ofFile tree env p = .error cause) :
    Told ⟨cause, p⟩ ↔
      ¬ ∃ document, Gives tree env p document ∧ Unshown (Fields.over defaults document) := by
  obtain unread | ⟨text, read, h⟩ := bind_eq_error_iff.1 h
  · obtain ⟨_, fault, rfl⟩ := mapError_eq_error_iff.1 unread
    refine iff_of_true (told_iff.2 ⟨nofun, nofun⟩) ?_
    rintro ⟨document, ⟨text, read, _⟩, _⟩
    rw [fault] at read
    cases read
  have read := mapError_eq_ok_iff.1 read
  obtain undecoded | ⟨document, decoded, h⟩ := bind_eq_error_iff.1 h
  · refine iff_of_true (told_iff.2 (decode_eq_error undecoded)) ?_
    rintro ⟨document, ⟨_, same, decoded⟩, _⟩
    cases read.symm.trans same
    rw [undecoded] at decoded
    cases decoded
  have gives : Gives tree env p document := ⟨text, read, decoded⟩
  have unshown_iff : (∃ document, Gives tree env p document ∧
      Unshown (Fields.over defaults document)) ↔ Unshown (Fields.over defaults document) :=
    ⟨fun ⟨_, same, unshown⟩ => gives.unique same ▸ unshown, fun unshown => ⟨_, gives, unshown⟩⟩
  obtain refused | ⟨_, _, h⟩ := bind_eq_error_iff.1 h
  · rw [told_iff, unshown_iff]
    obtain ⟨unshown, rfl⟩ | ⟨shown, ⟨_, rfl⟩ | ⟨_, rfl | rfl⟩⟩ := check_eq_error refused
    · exact iff_of_false (fun told => told.1 rfl) (fun shown => shown unshown)
    all_goals exact iff_of_true ⟨nofun, nofun⟩ shown
  · cases h

/-- Loading settings gives the defaults if there is no file, and else what the file says over
the defaults, if these are then well formed. In no other way does it give settings, and a fault
is told as one of the settings unless the name of the file is too long or a choice in it cannot
be shown. -/
theorem load_wellFormed (tree : FileTree) (env : Environment) (p : Path) :
    (tree.find env p = .ok none → load tree env p = .ok defaults) ∧
      match load tree env p with
      | .ok settings => WellFormed settings ∧
          (tree.find env p = .ok none ∨ ∃ document, Gives tree env p document ∧
            settings = Fields.over defaults document ∧
            ∀ way value, (Tree.table document).at? way = some value → value.isTable = false →
              (Tree.table settings).at? way = some value)
      | .error f => f.path = p ∧ (Told f ↔ ¬ Untold tree env p) := by
  refine ⟨fun missing => by rw [load, missing], ?_⟩
  cases found : tree.find env p with
  | error f =>
      simp only [load, found]
      refine ⟨trivial, iff_of_false ?_ (fun told => told (.name (find_eq_error found)))⟩
      exact fun told => (told_iff.1 told).2 f rfl
  | ok node? =>
      cases node? with
      | none =>
          simp only [load, found]
          exact ⟨check_eq_ok_iff.1 rfl, .inl trivial⟩
      | some node =>
          cases loaded : ofFile tree env p with
          | ok settings =>
              simp only [load, found, loaded, Except.mapError]
              obtain ⟨document, gives, rfl, wellFormed⟩ := ofFile_eq_ok_iff.1 loaded
              refine ⟨wellFormed, .inr ⟨document, gives, rfl, fun way value stands leaf => ?_⟩⟩
              obtain ⟨text, _, decoded⟩ := gives
              exact Tree.at?_over (keyedOnce_decode decoded) leaf stands defaults
          | error cause =>
              simp only [load, found, loaded, Except.mapError]
              refine ⟨trivial, (ofFile_eq_error loaded).trans (not_congr ⟨?_, ?_⟩)⟩
              · exact fun ⟨document, gives, unshown⟩ => .choice document gives unshown
              · rintro (long | ⟨document, gives, unshown⟩)
                · rw [find_of_tooLong long] at found
                  cases found
                · exact ⟨document, gives, unshown⟩

/-- A name of 256 letters, which no file has: loading ends in a fault of the file system. -/
theorem load_of_long_name :
    let tree : FileTree := [(["work"], .directory)]
    let env : Environment := { directory := ["work"] }
    let p : Path := ⟨"", [String.ofList (List.replicate 256 'n')]⟩
    ∃ f, load tree env p = .error f ∧ ¬ Told f ∧
      Command.Session.settingsStop f = .crash (.file ⟨.nameTooLong, p⟩) := by
  intro tree env p
  have long : tree.placeOf env p = .error .nameTooLong := by decide +kernel
  have failed : load tree env p = .error ⟨.unusable ⟨.nameTooLong, p⟩, p⟩ := by
    rw [load, find_of_tooLong long]
  exact ⟨_, failed, fun told => (told_iff.1 told).2 _ rfl, rfl⟩

end Load
end DependencyAudit.Settings
