import DependencyAudit.Proofs.Evidence.Additive
import DependencyAudit.Proofs.Evidence.Document

/-!
One list of coordinates in several formats. A build tool may write what it resolved as a list, as
a table with the list in it, or as plain text with one coordinate to a line. In plain text the
coordinates are looked for and in the other formats they are copied; for coordinates over the
alphabet of plain text both find the same.
-/
namespace DependencyAudit.Evidence
variable {c : Coordinate} {cs : List Coordinate} {name : String}

section Coordinates

instance : DecidablePred Plain := fun c =>
  decidable_of_iff
    ((c.group.toList ≠ [] ∧ c.group.toList.all isNamePart = true) ∧
      (c.artifact.toList ≠ [] ∧ c.artifact.toList.all isNamePart = true) ∧
      c.version.toList ≠ [] ∧ c.version.toList.all isVersionPart = true)
    (by simp only [Plain, isName_iff, isVersion_iff, List.all_eq_true])

theorem Plain.trim_text (h : Plain c) :
    String.ofList (Text.trim c.text.toList) = c.text := by
  rw [Text.trim_of_visible h.visible, String.ofList_toList]

theorem text_ne_empty (c : Coordinate) : c.text ≠ "" := by
  intro empty
  have nonempty : c.text.toList ≠ [] := by simp [Coordinate.toList_text]
  exact nonempty (congrArg String.toList empty)

/-- Nothing is lost or changed when a list is cleaned. -/
theorem mem_cleaned_text_iff (plain : ∀ c ∈ cs, Plain c) :
    name ∈ cleaned (cs.map Coordinate.text) ↔ ∃ c ∈ cs, c.text = name := by
  simp only [mem_cleaned_iff, List.mem_map, exists_exists_and_eq_and]
  constructor
  · rintro ⟨-, c, member, named⟩
    exact ⟨c, member, (plain c member).trim_text ▸ named⟩
  · rintro ⟨c, member, rfl⟩
    exact ⟨text_ne_empty c, c, member, (plain c member).trim_text⟩

end Coordinates

/-- The list of some coordinates in a document. -/
def listing (cs : List Coordinate) : Tree := .list (cs.map fun c => .text c.text)

/-- A file of the given name lists the coordinates: in JSON or in plain text, where empty lines
do not matter. -/
inductive Written (cs : List Coordinate) (p : Path) (text : List Char) : Prop
  | list : p.kind = ".json" → Json.read text = .ok (listing cs) → Written cs p text
  | resolved (fields : Fields) : p.kind = ".json" → Json.read text = .ok (.table fields) →
      Fields.find? resolvedKey fields = some (listing cs) → Written cs p text
  | lines : p.kind ≠ ".json" → p.kind ≠ ".yaml" → p.kind ≠ ".yml" →
      (Text.splitLines text).filter (· ≠ []) = cs.map (fun c => c.text.toList) →
      Written cs p text

section Writing
variable {p : Path} {style : Json.Style} {fields : Fields}

theorem fits_listing (room : Nat) (cs : List Coordinate) : Json.Fits (room + 1) (listing cs) :=
  .list fun t ht => by
    obtain ⟨c, _, rfl⟩ := List.mem_map.1 ht
    exact .text _

theorem isLong_listing (cs : List Coordinate) : (listing cs).isLong = false :=
  Tree.anyLong_eq_false_iff.2 fun t ht => by
    obtain ⟨c, _, rfl⟩ := List.mem_map.1 ht
    rfl

/-- The list as it is written in JSON. -/
theorem written_list (kind : p.kind = ".json") (spaced : style.Spaced) :
    Written cs p (style.render 0 (listing cs) ++ ['\n']) :=
  .list kind (Json.read_render spaced (fits_listing _ cs) (isLong_listing cs))

/-- A table with the list in it as it is written in JSON. -/
theorem written_resolved (kind : p.kind = ".json") (spaced : style.Spaced)
    (fits : Json.Fits Json.nestingLimit (.table fields))
    (short : (Tree.table fields).isLong = false)
    (found : Fields.find? resolvedKey fields = some (listing cs)) :
    Written cs p (style.render 0 (.table fields) ++ ['\n']) :=
  .resolved fields kind (Json.read_render spaced fits short) found

theorem filter_splitLines_append (s t : List Char) :
    (Text.splitLines (s ++ '\n' :: t)).filter (· ≠ []) =
      (Text.splitLines s).filter (· ≠ []) ++ (Text.splitLines t).filter (· ≠ []) := by
  obtain joined | joined := Text.splitLines_append s t <;> simp [joined]

theorem lines_listed (plain : ∀ c ∈ cs, Plain c) :
    (Text.splitLines (listed (cs.map Coordinate.text))).filter (· ≠ []) =
      cs.map fun c => c.text.toList := by
  have line {c : Coordinate} (h : Plain c) :
      (Text.splitLines c.text.toList).filter (· ≠ []) = [c.text.toList] := by
    rw [h.splitLines_text]
    simp [text_ne_empty]
  induction cs with
  | nil => rfl
  | cons c cs ih =>
      obtain ⟨first, rest⟩ := List.forall_mem_cons.1 plain
      cases cs with
      | nil => simpa [listed] using line first
      | cons d cs =>
          have split : listed ((c :: d :: cs).map Coordinate.text) =
              c.text.toList ++ '\n' :: listed ((d :: cs).map Coordinate.text) := by
            simp [listed, List.intercalate]
          rw [split, filter_splitLines_append, line first, ih rest]
          rfl

/-- The coordinates one to a line. -/
theorem written_lines (json : p.kind ≠ ".json") (yaml : p.kind ≠ ".yaml") (yml : p.kind ≠ ".yml")
    (plain : ∀ c ∈ cs, Plain c) : Written cs p (listed (cs.map Coordinate.text)) :=
  .lines json yaml yml (lines_listed plain)

end Writing

section Reading
variable {p : Path} {text : List Char}

theorem shown_listing (cs : List Coordinate) :
    Listing.ofTree (listing cs) = .list ((cs.map Coordinate.text).map .ok) := by
  simp only [listing, Listing.ofTree, List.map_map]
  rfl

theorem decode_of_has {t : Tree} (kind : p.kind = ".json") (read : Json.read text = .ok t)
    (has : (Outline.of (.json t)).found = Listing.ofTree (listing cs)) :
    decode p text = .ok (cleaned (cs.map Coordinate.text)) := by
  rw [decode_eq (.json t kind read), has, shown_listing]
  exact read_list_eq_ok_iff.2 ⟨_, rfl, rfl⟩

/-- Lines that are coordinates or empty give these coordinates. -/
theorem mem_ofText_lines (plain : ∀ c ∈ cs, Plain c)
    (lines : (Text.splitLines text).filter (· ≠ []) = cs.map (fun c => c.text.toList)) :
    name ∈ ofText text ↔ ∃ c ∈ cs, c.text = name := by
  have among (line : List Char) :
      line ∈ Text.splitLines text ∧ line ≠ [] ↔ ∃ c ∈ cs, c.text.toList = line := by
    rw [← List.mem_map, ← lines, List.mem_filter, decide_eq_true_eq]
  rw [mem_ofText_iff]
  constructor
  · rintro ⟨line, hline, d, read, named⟩
    obtain ⟨c, member, rfl⟩ := (among line).1 ⟨hline, ne_nil_of_mem_onLine read⟩
    rw [(plain c member).onLine_text] at read
    obtain rfl : d = c := List.mem_singleton.1 read
    exact ⟨d, member, named⟩
  · rintro ⟨c, member, named⟩
    have line := ((among c.text.toList).2 ⟨c, member, rfl⟩).1
    exact ⟨_, line, c, (plain c member).onLine_text ▸ List.mem_cons_self, named⟩

theorem exists_decode (plain : ∀ c ∈ cs, Plain c) (written : Written cs p text) :
    ∃ E, decode p text = .ok E ∧ ∀ name, name ∈ E ↔ ∃ c ∈ cs, c.text = name := by
  cases written with
  | list kind read =>
      exact ⟨_, decode_of_has kind read rfl, fun _ => mem_cleaned_text_iff plain⟩
  | resolved fields kind read found =>
      refine ⟨_, decode_of_has kind read ?_, fun _ => mem_cleaned_text_iff plain⟩
      simp only [Outline.of, Outline.found, found]
      rfl
  | lines json yaml yml lines =>
      have decoded : decode p text = .ok (ofText text) := by
        rw [decode, if_neg json, if_neg (not_or.2 ⟨yaml, yml⟩)]
      exact ⟨_, decoded, fun _ => mem_ofText_lines plain lines⟩

end Reading

section Files
variable {tree : FileTree} {env : Environment} {p : Path}

/-- There is a file with the list of the coordinates. -/
def ListedIn (cs : List Coordinate) (tree : FileTree) (env : Environment) (p : Path) : Prop :=
  ∃ text, tree.readText env p = .ok text ∧ Written cs p text

theorem exists_readEvidence (plain : ∀ c ∈ cs, Plain c) (file : ListedIn cs tree env p) :
    ∃ E, tree.readEvidence env p = .ok E ∧ ∀ name, name ∈ E ↔ ∃ c ∈ cs, c.text = name := by
  obtain ⟨text, read, written⟩ := file
  obtain ⟨E, decoded, members⟩ := exists_decode plain written
  refine ⟨E, ?_, members⟩
  simp only [FileTree.readEvidence, read, decoded, Except.mapError, bind, Except.bind]

/-- Coordinates over the alphabet of plain text are read from every file that lists them, in
whichever format, and nothing else is. So an audit with one of these files comes to what it comes
to with any other. -/
theorem readEvidence_listed (plain : ∀ c ∈ cs, Plain c) (file : ListedIn cs tree env p) :
    ∃ E, tree.readEvidence env p = .ok E ∧ (∀ name, name ∈ E ↔ ∃ c ∈ cs, c.text = name) ∧
      ∀ tree' env' p', ListedIn cs tree' env' p' →
        ∃ E', FileTree.readEvidence tree' env' p' = .ok E' ∧ ∀ tables lines,
          audit tables (some E') lines = audit tables (some E) lines := by
  obtain ⟨E, given, members⟩ := exists_readEvidence plain file
  refine ⟨E, given, members, fun tree' env' p' file' => ?_⟩
  obtain ⟨E', given', members'⟩ := exists_readEvidence plain file'
  refine ⟨E', given', fun tables lines => List.map_congr_left fun d _ => ?_⟩
  exact Verdict.of_evidence_congr ((members' _).trans (members _).symm)

/-- Versions of signs alone and a coordinate given twice: in a table, in a list, and line by
line. -/
theorem readEvidence_listed_of_signs :
    let cs : List Coordinate := [⟨"g", "a", "-+"⟩, ⟨"g.h", "b-c", "1.0-rc+2"⟩, ⟨"g", "a", "-+"⟩]
    let table : Path := ⟨"/", ["work", "table.json"]⟩
    let list : Path := ⟨"/", ["work", "list.json"]⟩
    let lines : Path := ⟨"/", ["work", "lines.txt"]⟩
    let t : Tree := .table [("resolved", listing cs)]
    let written (t : Tree) := Json.Style.compact.render 0 t ++ ['\n']
    let bytes : List Char → List UInt8 := List.map fun c => UInt8.ofNat c.toNat
    let tree : FileTree := [(["work"], .directory),
      (["work", "table.json"], .file (bytes (written t))),
      (["work", "list.json"], .file (bytes (written (listing cs)))),
      (["work", "lines.txt"], .file (bytes (listed (cs.map Coordinate.text))))]
    let env : Environment := { directory := ["work"] }
    (∀ place ∈ [table, list, lines], ListedIn cs tree env place) ∧
      ∃ E, tree.readEvidence env table = .ok E ∧ (∀ name, name ∈ E ↔ ∃ c ∈ cs, c.text = name) ∧
        ∀ place ∈ [list, lines], ∃ E', tree.readEvidence env place = .ok E' ∧
          ∀ tables script, audit tables (some E') script = audit tables (some E) script := by
  intro cs table list lines t written bytes tree env
  have plain : ∀ c ∈ cs, Plain c := by decide +kernel
  have spaced : Json.Style.compact.Spaced := ⟨[], rfl, nofun⟩
  have fits : Json.Fits Json.nestingLimit t :=
    .table (List.nodup_singleton _) fun f member => by
      cases List.mem_singleton.1 member
      exact fits_listing _ cs
  have inTable : ListedIn cs tree env table := ⟨written t, by decide +kernel,
    written_resolved (by decide +kernel) spaced fits (by decide +kernel) rfl⟩
  have inList : ListedIn cs tree env list := ⟨written (listing cs), by decide +kernel,
    written_list (by decide +kernel) spaced⟩
  have inLines : ListedIn cs tree env lines := ⟨listed (cs.map Coordinate.text), by decide +kernel,
    written_lines (by decide +kernel) (by decide +kernel) (by decide +kernel) plain⟩
  have files : ∀ place ∈ [table, list, lines], ListedIn cs tree env place :=
    by simp [inTable, inList, inLines]
  obtain ⟨E, given, members, same⟩ := readEvidence_listed plain inTable
  exact ⟨files, E, given, members, fun place member =>
    same tree env place (files place (List.mem_cons_of_mem table member))⟩

end Files
end DependencyAudit.Evidence
