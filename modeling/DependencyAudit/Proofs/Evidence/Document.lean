import DependencyAudit.Proofs.Evidence.Faults
import DependencyAudit.Verdict.Classify

/-!
Evidence in structured documents. A document is a table or it is not, and what counts is either
the document itself or what stands under one key of the table. There, a list gives its items,
nothing gives no items, and anything else is refused. A table without the key is not refused:
it is read as one with nothing under it.
-/
namespace DependencyAudit

/-- An item as it is shown, unless it is or holds a number with too many digits. -/
def Tree.shown (t : Tree) : Except LongInteger String :=
  if t.isLong then .error ⟨⟩ else .ok t.plain

namespace Evidence

/-- What a structured text holds; a text in YAML may hold nothing at all. -/
inductive Document
  | json (t : Tree)
  | yaml (d : Option Yaml.Document)

/-- A text in a file of the given name is read as a document. -/
inductive Holds (p : Path) (text : List Char) : Document → Prop
  | json (t : Tree) : p.kind = ".json" → Json.read text = .ok t → Holds p text (.json t)
  | yaml (d : Option Yaml.Document) : p.kind = ".yaml" ∨ p.kind = ".yml" →
      Yaml.read text = .ok d → Holds p text (.yaml d)

/-- What there may be in place of a list; its items are given as they are shown. -/
inductive Listing
  | nothing
  | list (items : List (Except LongInteger String))
  | other

namespace Listing

def ofTree : Tree → Listing
  | .null => nothing
  | .list items => list (items.map Tree.shown)
  | _ => other

def ofYaml (d : Yaml.Document) : Yaml.Value → Listing
  | .scalar .null => nothing
  | .collection id =>
    match d.collection? id with
    | some (.list items) => list (items.map d.plain)
    | _ => other
  | _ => other

end Listing

/-- Whether a document is a table, and what is found in it, or under its key for evidence. -/
inductive Outline
  | plain (found : Listing)
  | table (resolved : Option Listing)

namespace Outline

def of : Document → Outline
  | .json (.table fields) => table ((Fields.find? resolvedKey fields).map Listing.ofTree)
  | .json t => plain (Listing.ofTree t)
  | .yaml none => plain .nothing
  | .yaml (some d) =>
    match d.table? d.root with
    | some entries => table ((entries.lookup (.text resolvedKey)).map (Listing.ofYaml d))
    | none => plain (Listing.ofYaml d d.root)

/-- What there is where evidence is looked for. -/
inductive Has (l : Listing) : Outline → Prop
  | plain : Has l (plain l)
  | resolved : Has l (table (some l))

/-- A table without the key is taken for one with nothing under it. -/
def found : Outline → Listing
  | plain l => l
  | table resolved => resolved.getD .nothing

end Outline

/-- The evidence that a listing comes to. -/
def Listing.read (p : Path) : Listing → Except EvidenceFault Evidence
  | nothing => .ok []
  | list items => ((items.mapM id).map cleaned).mapError .longInteger
  | other => .error (.file .notList p)

section Items
variable {p : Path} {items : List (Except LongInteger String)} {texts : List String}
  {name : String} {l : Listing} {E : Evidence}

theorem mapM_id_eq_ok_iff : items.mapM id = .ok texts ↔ items = texts.map .ok := by
  rw [mapM_eq_ok_iff, ← List.forall₂_eq_eq_eq, List.forall₂_map_right_iff]
  rfl

/-- Items can be had as texts exactly if each of them can be shown. -/
theorem exists_map_ok_iff :
    (∃ texts : List String, items = texts.map .ok) ↔ ∀ item ∈ items, ∃ t, item = .ok t := by
  simp only [← mapM_id_eq_ok_iff]
  exact exists_mapM_iff

theorem mem_cleaned_iff :
    name ∈ cleaned texts ↔ name ≠ "" ∧ ∃ t ∈ texts, String.ofList (Text.trim t.toList) = name := by
  simp only [cleaned, List.mem_filter, List.mem_map, decide_eq_true_eq]
  exact and_comm

theorem read_list_eq_ok_iff :
    (Listing.list items).read p = .ok E ↔ ∃ texts, items = texts.map .ok ∧ cleaned texts = E := by
  rw [Listing.read, mapError_eq_ok_iff]
  simp only [← mapM_id_eq_ok_iff]
  cases items.mapM id <;> simp [Except.map]

theorem read_eq_notList_iff : l.read p = .error (.file .notList p) ↔ l = .other := by
  cases l with
  | nothing => exact iff_of_false nofun nofun
  | other => exact iff_of_true rfl rfl
  | list items =>
      refine iff_of_false (fun refused => ?_) nofun
      obtain ⟨_, _, ⟨⟩⟩ := mapError_eq_error_iff.1 refused

end Items

section Decode
variable {p : Path} {text : List Char} {document : Document} {t : Tree} {d : Yaml.Document}
  {v : Yaml.Value} {items : List Tree}

theorem map_shown (short : Tree.anyLong items = false) :
    items.map Tree.shown = (items.map Tree.plain).map .ok := by
  rw [List.map_map]
  refine List.map_congr_left fun item member => ?_
  rw [Tree.shown, Tree.anyLong_eq_false_iff.1 short item member]
  rfl

theorem read_ofTree (short : t.isLong = false) :
    (Listing.ofTree t).read p = (listed? t).elim (.error (.file .notList p)) fun items =>
      .ok (cleaned (items.map Tree.plain)) := by
  cases t with
  | scalar s => cases s <;> rfl
  | table fields => rfl
  | list items => exact read_list_eq_ok_iff.2 ⟨_, map_shown short, rfl⟩

theorem read_ofYaml :
    (Listing.ofYaml d v).read p = (listedYaml? d v).elim (.error (.file .notList p)) fun items =>
      ((items.mapM d.plain).map cleaned).mapError .longInteger := by
  cases v with
  | scalar s => cases s <;> rfl
  | pair _ => rfl
  | collection id =>
      simp only [Listing.ofYaml, listedYaml?]
      cases d.collection? id with
      | none => rfl
      | some collection =>
          cases collection with
          | list items => simp only [Listing.read, List.mapM_map, Function.id_comp, Option.elim]
          | table _ | set _ => rfl

theorem read_found_of_tree (short : t.isLong = false) :
    (Outline.of (.json t)).found.read p = (items? t).elim (.error (.file .notList p)) fun items =>
      .ok (cleaned (items.map Tree.plain)) := by
  cases t with
  | scalar s => exact read_ofTree short
  | list items => exact read_ofTree short
  | table fields =>
      simp only [Outline.of, Outline.found, items?]
      cases found : Fields.find? resolvedKey fields with
      | none => rfl
      | some value =>
          exact read_ofTree (Json.isLong_of_mem_fields short _ (Fields.mem_of_find? found))

theorem read_found_of_yaml :
    (Outline.of (.yaml (some d))).found.read p =
      (yamlItems? d).elim (.error (.file .notList p)) fun items =>
        ((items.mapM d.plain).map cleaned).mapError .longInteger := by
  simp only [Outline.of, yamlItems?]
  cases d.table? d.root with
  | none => exact read_ofYaml
  | some entries =>
      simp only [Outline.found]
      cases entries.lookup (.text resolvedKey) with
      | none => rfl
      | some value => exact read_ofYaml

/-- Decoding sees of a document its outline. -/
theorem decode_eq (holds : Holds p text document) :
    decode p text = (Outline.of document).found.read p := by
  unfold decode
  cases holds with
  | json t kind read =>
      have short := Json.isLong_read read
      rw [if_pos kind, read_found_of_tree short]
      simp only [ofJsonText, read]
      cases listed : items? t with
      | none => rfl
      | some items => simp [anyLong_items short listed]
  | yaml d kind read =>
      have other : p.kind ≠ ".json" := by
        rintro json
        simp [json] at kind
      rw [if_neg other, if_pos kind]
      cases d with
      | none => simp only [ofYamlText, read, Outline.of, Outline.found, Listing.read]
      | some d =>
          rw [read_found_of_yaml]
          simp only [ofYamlText, read]
          cases yamlItems? d <;> rfl

end Decode

theorem Outline.found_eq_iff {o : Outline} {l : Listing} :
    o.found = l ↔ o.Has l ∨ l = .nothing ∧ o = .table none := by
  constructor
  · rintro rfl
    cases o with
    | plain l => exact .inl .plain
    | table resolved =>
        cases resolved with
        | none => exact .inr ⟨rfl, rfl⟩
        | some l => exact .inl .resolved
  · rintro ((_ | _) | ⟨rfl, rfl⟩) <;> rfl

section File
variable {tree : FileTree} {env : Environment} {p : Path} {text : List Char} {document : Document}

theorem readEvidence_eq (read : tree.readText env p = .ok text) (holds : Holds p text document) :
    tree.readEvidence env p = (Outline.of document).found.read p := by
  rw [← decode_eq holds]
  simp only [FileTree.readEvidence, read, Except.mapError, bind, Except.bind]

/-- A document gives evidence exactly if it is, or has under its key, nothing or a list of items
that can be shown, or is a table without the key. Anything else in these places is refused as no
list. A list gives its items as they are shown, without the white space around them and without
the blank ones; all else that is not refused says that nothing was resolved. -/
theorem readEvidence_document (read : tree.readText env p = .ok text)
    (holds : Holds p text document) :
    let o := Outline.of document
    ((∃ E, tree.readEvidence env p = .ok E) ↔
      o.Has .nothing ∨ o = .table none ∨
        ∃ items, o.Has (.list items) ∧ ∀ item ∈ items, ∃ t, item = .ok t) ∧
    (tree.readEvidence env p = .error (.file .notList p) ↔ o.Has .other) ∧
    ∀ E, tree.readEvidence env p = .ok E →
      (o.Has .nothing ∨ o = .table none → E = []) ∧
      ∀ items, o.Has (.list items) → ∀ name, name ∈ E ↔ name ≠ "" ∧
        ∃ item ∈ items, ∃ t, item = .ok t ∧ String.ofList (Text.trim t.toList) = name := by
  intro o
  have decoded : tree.readEvidence env p = o.found.read p := readEvidence_eq read holds
  have nothing : o.Has .nothing ∨ o = .table none ↔ o.found = .nothing := by
    rw [Outline.found_eq_iff, eq_self, true_and]
  have list {items} : o.Has (.list items) ↔ o.found = .list items := by
    simp [Outline.found_eq_iff]
  have other : o.Has .other ↔ o.found = .other := by simp [Outline.found_eq_iff]
  simp only [decoded, ← or_assoc, nothing, list, other]
  refine ⟨?_, read_eq_notList_iff, fun E given => ⟨fun empty => ?_, fun items listed name => ?_⟩⟩
  · cases found : o.found with
    | nothing => exact iff_of_true ⟨[], rfl⟩ (.inl rfl)
    | other => exact iff_of_false (by rintro ⟨_, ⟨⟩⟩) (by simp)
    | list items =>
        simp only [read_list_eq_ok_iff, reduceCtorEq, false_or, Listing.list.injEq,
          exists_eq_left', ← exists_map_ok_iff]
        exact ⟨fun ⟨_, texts, same, _⟩ => ⟨texts, same⟩, fun ⟨texts, same⟩ => ⟨_, texts, same, rfl⟩⟩
  · rw [empty] at given
    exact (Except.ok.inj given).symm
  · rw [listed] at given
    obtain ⟨texts, rfl, rfl⟩ := read_list_eq_ok_iff.1 given
    simp [mem_cleaned_iff]

/-- A list under the key, with an item that is blank. -/
theorem readEvidence_of_resolved :
    let text := "\x7b\"resolved\": [\" g:a:1\", \" \"]\x7d"
    let tree : FileTree := [(["work"], .directory), (["work", "r.json"],
      .file (text.toList.map fun c => UInt8.ofNat c.toNat))]
    let p : Path := ⟨"/", ["work", "r.json"]⟩
    let items : List (Except LongInteger String) := [.ok " g:a:1", .ok " "]
    tree.readEvidence { directory := ["work"] } p = .ok ["g:a:1"] ∧
      ∀ name, name ∈ ["g:a:1"] ↔ name ≠ "" ∧
        ∃ item ∈ items, ∃ t, item = .ok t ∧ String.ofList (Text.trim t.toList) = name := by
  intro text tree p items
  let t : Tree := .table [("resolved", .list [.text " g:a:1", .text " "])]
  have read : tree.readText { directory := ["work"] } p = .ok text.toList := by decide +kernel
  have holds : Holds p text.toList (.json t) := .json _ (by decide +kernel) (by cbv)
  have ok : tree.readEvidence { directory := ["work"] } p = .ok ["g:a:1"] := by decide +kernel
  have listed : (Outline.of (.json t)).Has (.list items) := .resolved
  obtain ⟨-, -, given⟩ := readEvidence_document read holds
  exact ⟨ok, (given ["g:a:1"] ok).2 items listed⟩

/-- A table without the key is read as evidence that nothing was resolved, so that what it does
list is flagged. -/
theorem evidence_of_other_key :
    let text := "\x7b\"dependencies\": [\"g:a:1\"]\x7d"
    let tree : FileTree := [(["work"], .directory), (["work", "r.json"],
      .file (text.toList.map fun c => UInt8.ofNat c.toNat))]
    let p : Path := ⟨"/", ["work", "r.json"]⟩
    Holds p text.toList (.json (.table [("dependencies", .list [.text "g:a:1"])])) ∧
      tree.readEvidence { directory := ["work"] } p = .ok [] ∧
      ∃ v ∈ audit Tables.builtIn (some []) ["api 'g:a:1'"],
        v.coordinate = "g:a:1" ∧ v.flagged = true := by
  intro text tree p
  exact ⟨.json _ (by decide +kernel) (by cbv), by decide +kernel, by decide +kernel⟩

end File

end Evidence
end DependencyAudit
