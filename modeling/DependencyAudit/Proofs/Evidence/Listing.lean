import DependencyAudit.Proofs.Declaration.Coordinate
import DependencyAudit.Proofs.Evidence.Tree
import DependencyAudit.Proofs.Text.Lines

/-!
Declared coordinates in plain evidence. A build script may declare any version without
white space and quotes, such as a variable or a range; evidence in plain text is read by
an alphabet of its own. A declared coordinate over that alphabet is read from every text
that lists it on a line, and no text at all gives any other.
-/
namespace DependencyAudit.Evidence

/-- Over the alphabet that plain evidence is read by. -/
def Plain (c : Coordinate) : Prop :=
  IsName c.group.toList ∧ IsName c.artifact.toList ∧ IsVersion c.version.toList

section Read
variable {c : Coordinate} {text : List Char}

theorem Plain.separable (h : Plain c) : c.Separable :=
  ⟨h.1.not_mem (by decide), h.2.1.not_mem (by decide)⟩

theorem plain_coordinate {g a v : List Char} (hg : IsName g) (ha : IsName a) (hv : IsVersion v) :
    Plain (coordinate g a v) := by
  simpa only [Plain, coordinate, String.toList_ofList] using ⟨hg, ha, hv⟩

theorem plain_of_mem_onLine {line : List Char} (h : c ∈ onLine line) : Plain c := by
  obtain token | conflict := List.mem_append.1 h
  · obtain ⟨_, _, _, -, read⟩ := Text.exists_found_of_mem_scanFrom token
    obtain ⟨g, a, v, hg, ha, hv, _, rfl, _⟩ := token?_eq_some_iff.1 read
    exact plain_coordinate hg ha hv
  · obtain ⟨pair, found, rfl⟩ := List.mem_map.1 conflict
    obtain ⟨_, _, _, -, read⟩ := Text.exists_found_of_mem_scanFrom found
    obtain ⟨g, a, v, w, _, _, hg, ha, _, hw, _, _, _, _, chosen, _⟩ := conflict?_eq_some_iff.1 read
    exact chosen ▸ plain_coordinate hg ha hw

/-- Whatever a plain text says, what is read from it is over its alphabet. -/
theorem exists_plain_of_mem_ofText {name : String} (h : name ∈ ofText text) :
    ∃ c, Plain c ∧ c.text = name := by
  obtain ⟨line, _, c, member, named⟩ := mem_ofText_iff.1 h
  exact ⟨c, plain_of_mem_onLine member, named⟩

theorem plain_of_text_mem_ofText (separable : c.Separable) (h : c.text ∈ ofText text) :
    Plain c := by
  obtain ⟨d, plain, same⟩ := exists_plain_of_mem_ofText h
  exact plain.separable.eq_of_text_eq separable same ▸ plain

theorem Plain.mem_text {d : Char} (h : Plain c) (hd : d ∈ c.text.toList) :
    d = ':' ∨ isVersionPart d = true := by
  have name {s : List Char} (hs : IsName s) (mem : d ∈ s) : isVersionPart d = true := by
    rw [isVersionPart, (isName_iff.1 hs).2 d mem, Bool.true_or]
  simp only [Coordinate.toList_text, List.mem_append, List.mem_cons] at hd
  obtain hd | rfl | hd | rfl | hd := hd
  · exact .inr (name h.1 hd)
  · exact .inl rfl
  · exact .inr (name h.2.1 hd)
  · exact .inl rfl
  · exact .inr ((isVersion_iff.1 h.2.2).2 d hd)

theorem Plain.visible (h : Plain c) : ∀ d ∈ c.text.toList, Text.isBlank d = false := by
  intro d hd
  rw [← Bool.not_eq_true]
  intro blank
  obtain rfl | part := h.mem_text hd
  · cases blank
  · cases part.symm.trans (not_isVersionPart_of_isBlank blank)

theorem Plain.splitLines_text (h : Plain c) :
    Text.splitLines c.text.toList = [c.text.toList] := by
  apply Text.splitLines_eq_singleton
  · simp [Coordinate.toList_text]
  · exact fun d hd => Text.isLineEnd_of_visible (h.visible d hd)

theorem Plain.onLine_text (h : Plain c) : onLine c.text.toList = [c] := by
  have ends : EndsVersion [] := nofun
  have read : token? (c.text.toList ++ []) = some (c, []) :=
    token?_eq_some_iff.2 ⟨_, _, _, h.1, h.2.1, h.2.2, ends, by simp [coordinate],
      by simp [Coordinate.toList_text]⟩
  have nonempty : c.text.toList ≠ [] := by simp [Coordinate.toList_text]
  have first : tokensOn (c.text.toList ++ []) = [c] := Text.scanFrom_of_some nonempty read
  have arrow : ¬ ['-', '>'] <:+: c.text.toList := by
    intro arrow
    have mem : '>' ∈ c.text.toList := arrow.subset (List.mem_cons_of_mem _ List.mem_cons_self)
    obtain colon | part := h.mem_text mem
    · cases colon
    · cases part
  rw [List.append_nil] at first
  rw [onLine, first, conflictsOn_eq_nil arrow]
  rfl

theorem Plain.text_mem_ofText (h : Plain c) (line : c.text.toList ∈ Text.splitLines text) :
    c.text ∈ ofText text :=
  mem_ofText_iff.2 ⟨_, line, c, h.onLine_text ▸ List.mem_cons_self, rfl⟩

end Read

section Declared
variable {number : Int} {line : String} {found : Kind × Declaration}

/-- A declared coordinate has no white space in it, so it takes up one line. -/
theorem splitLines_declared (h : found ∈ Declaration.onLine number line.toList) :
    Text.splitLines found.2.coordinate.text.toList = [found.2.coordinate.text.toList] := by
  obtain ⟨_, literal, _⟩ := exists_literal_of_mem_onLine h
  apply Text.splitLines_eq_singleton
  · simp [Coordinate.toList_text]
  · exact fun c hc => Text.isLineEnd_of_visible (literal.visible c hc)

/-- A declared coordinate is read from its own text exactly if it is over the alphabet of
plain evidence. Then a text that lists it leaves it unflagged; otherwise it is flagged,
whatever the text. -/
theorem ofText_declared (h : found ∈ Declaration.onLine number line.toList) :
    let c := found.2.coordinate
    Text.splitLines c.text.toList = [c.text.toList] ∧
      (c.text ∈ ofText c.text.toList ↔ Plain c) ∧
      ∀ (tables : Tables) (text : List Char),
        (Plain c → c.text.toList ∈ Text.splitLines text →
          (Verdict.of tables (some (ofText text)) found.2).flagged = false) ∧
        (¬ Plain c → c.text ∉ ofText text ∧
          (Verdict.of tables (some (ofText text)) found.2).flagged = true) := by
  intro c
  have separable : c.Separable := separable_of_mem_onLine h
  have lines : Text.splitLines c.text.toList = [c.text.toList] := splitLines_declared h
  have own : c.text.toList ∈ Text.splitLines c.text.toList := lines ▸ List.mem_singleton_self _
  refine ⟨lines, ⟨plain_of_text_mem_ofText separable, fun plain => plain.text_mem_ofText own⟩,
    fun tables text => ⟨fun plain listed => ?_, fun other => ?_⟩⟩
  · have resolved := plain.text_mem_ofText listed
    simpa [Verdict.of, Verdict.byEvidence] using resolved
  · have absent : c.text ∉ ofText text := mt (plain_of_text_mem_ofText separable) other
    exact ⟨absent, by simpa [Verdict.of, Verdict.byEvidence] using absent⟩

/-- A version with a plus sign in it, listed behind a drawing of another line. -/
theorem ofText_declared_of_plus :
    ∃ found ∈ Declaration.onLine 7 "ksp ('com.acme:code-gen_2:1.0+build.5')".toList,
      Plain found.2.coordinate ∧
      found.2.coordinate.text.toList ∈
        Text.splitLines "+--- a:b:1 -> 2\ncom.acme:code-gen_2:1.0+build.5".toList ∧
      (Verdict.of Tables.builtIn
        (some (ofText "+--- a:b:1 -> 2\ncom.acme:code-gen_2:1.0+build.5".toList))
        found.2).flagged = false := by
  let found : Kind × Declaration := (.annotationProcessor,
    ⟨⟨"com.acme", "code-gen_2", "1.0+build.5"⟩, 7, "ksp ('com.acme:code-gen_2:1.0+build.5')",
      .annotationProcessor⟩)
  have read : found ∈ Declaration.onLine 7 "ksp ('com.acme:code-gen_2:1.0+build.5')".toList := by
    decide +kernel
  have plain : Plain found.2.coordinate :=
    ⟨isName_iff.2 (by decide +kernel), isName_iff.2 (by decide +kernel),
      isVersion_iff.2 (by decide +kernel)⟩
  have listed : found.2.coordinate.text.toList ∈
      Text.splitLines "+--- a:b:1 -> 2\ncom.acme:code-gen_2:1.0+build.5".toList := by
    decide +kernel
  exact ⟨found, read, plain, listed, ((ofText_declared read).2.2 _ _).1 plain listed⟩

/-- A version that is a variable of the script is declared, and is not read back from a text
that consists of it. -/
theorem variable_version_not_read :
    ∃ found ∈ Declaration.onLine 1
        "implementation(\"com.squareup.okhttp3:okhttp:$okhttpVersion\")".toList,
      found.2.coordinate.text = "com.squareup.okhttp3:okhttp:$okhttpVersion" ∧
        found.2.coordinate.text ∉ ofText found.2.coordinate.text.toList ∧
        (Verdict.of Tables.builtIn (some (ofText found.2.coordinate.text.toList))
          found.2).flagged = true := by
  decide +kernel

end Declared
end DependencyAudit.Evidence
