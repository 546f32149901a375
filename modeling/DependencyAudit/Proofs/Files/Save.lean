import DependencyAudit.Files.Tree
import DependencyAudit.Proofs.Results

/-!
Files that were saved. A path leads through directories only, so a file that is put where the
path ends does not stand in its way, and the path leads to the file afterwards.
-/
namespace DependencyAudit.FileTree

variable {tree after : FileTree} {env : Environment} {p : Path} {place start target : List String}
  {content : List UInt8} {parts : List String}

theorem find?_put (tree : FileTree) (place : List String) (node : Node) (other : List String) :
    (tree.put place node).find? (fun entry => entry.1 == other) =
      if other = place then some (place, node)
      else tree.find? fun entry => entry.1 == other := by
  induction tree with
  | nil => by_cases same : other = place <;> simp [put, same, Ne.symm]
  | cons entry tree ih =>
      rw [put]
      by_cases here : entry.1 = place
      · by_cases same : other = place <;> simp_all [Ne.symm]
      · by_cases found : entry.1 = other
        · have apart : other ≠ place := fun same => here (found.trans same)
          simp [found, apart]
        · simp [here, found, ih]

theorem node?_put (tree : FileTree) (nonempty : place ≠ []) (node : Node) (other : List String) :
    (tree.put place node).node? other = if other = place then some node else tree.node? other := by
  cases other with
  | nil => simp [node?, nonempty.symm]
  | cons part other =>
      simp only [node?, find?_put]
      split <;> rfl

/-- A path leads where it led while the directories on its way stay directories. -/
theorem follow_of_directories (h : tree.follow start parts = .ok target)
    (kept : ∀ place, tree.node? place = some .directory → after.node? place = some .directory) :
    after.follow start parts = .ok target := by
  induction parts generalizing start with
  | nil => exact h
  | cons part parts ih =>
      rw [follow] at h ⊢
      split at h
      case h_1 => cases h
      case h_2 => cases h
      case h_3 isDirectory =>
          rw [kept start isDirectory]
          split at h
          case isTrue => cases h
          case isFalse short =>
              simp only [short, if_false]
              exact ih h

/-- What is put where no directory stands takes the place of none. -/
theorem directory_put {node : Node} (nonempty : place ≠ [])
    (free : tree.node? place ≠ some .directory) (h : tree.node? target = some .directory) :
    (tree.put place node).node? target = some .directory := by
  have apart : target ≠ place := fun same => free (same ▸ h)
  rw [node?_put tree nonempty, if_neg apart, h]

theorem placeOf_eq_ok_iff :
    tree.placeOf env p = .ok place ↔ p.hasNull = false ∧ p.text.utf8ByteSize ≤ pathLimit ∧
      tree.follow (if p.isAbsolute then [] else env.directory) p.parts = .ok place := by
  rw [placeOf]
  split
  case isTrue null => simp [null]
  case isFalse whole =>
      split
      case isTrue long => exact ⟨nofun, fun h => absurd h.2.1 (Nat.not_le.2 long)⟩
      case isFalse short => simp [whole, Nat.not_lt.1 short]

theorem placeOf_of_directories (h : tree.placeOf env p = .ok place)
    (kept : ∀ place, tree.node? place = some .directory → after.node? place = some .directory) :
    after.placeOf env p = .ok place := by
  obtain ⟨whole, short, led⟩ := placeOf_eq_ok_iff.1 h
  exact placeOf_eq_ok_iff.2 ⟨whole, short, follow_of_directories led kept⟩

theorem write_eq_ok (h : tree.write env p content = .ok after) :
    ∃ place, tree.placeOf env p = .ok place ∧ place ≠ [] ∧
      tree.node? place ≠ some .directory ∧ after = tree.put place (.file content) := by
  unfold write at h
  split at h
  case h_1 => cases h
  case h_2 place led =>
      split at h
      case h_1 => cases h
      case h_2 free =>
          cases h
          refine ⟨place, led, ?_, free, rfl⟩
          rintro rfl
          exact free rfl

theorem directory_of_write (h : tree.write env p content = .ok after)
    (isDirectory : tree.node? place = some .directory) : after.node? place = some .directory := by
  obtain ⟨written, _, nonempty, free, rfl⟩ := write_eq_ok h
  exact directory_put nonempty free isDirectory

theorem exists_of_write (h : tree.write env p content = .ok after) :
    ∃ place, after.placeOf env p = .ok place ∧ after.node? place = some (.file content) ∧
      ∀ other, other ≠ place → after.node? other = tree.node? other := by
  have kept (other : List String) (isDirectory : tree.node? other = some .directory) :
      after.node? other = some .directory := directory_of_write h isDirectory
  obtain ⟨place, led, nonempty, free, rfl⟩ := write_eq_ok h
  refine ⟨place, placeOf_of_directories led kept, ?_, fun other apart => ?_⟩
  · rw [node?_put tree nonempty, if_pos rfl]
  · rw [node?_put tree nonempty, if_neg apart]

theorem read_of_write (h : tree.write env p content = .ok after) :
    after.read env p = .ok content := by
  obtain ⟨place, leads, file, _⟩ := exists_of_write h
  simp only [read, leads, file]

theorem read_of_save {text : String} (h : tree.save env p text = .ok after) :
    after.read env p = .ok text.toUTF8.toList := by
  obtain ⟨made, _, h⟩ := bind_eq_ok_iff.1 h
  exact read_of_write h

end DependencyAudit.FileTree
