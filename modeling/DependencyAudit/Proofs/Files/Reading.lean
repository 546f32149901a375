import DependencyAudit.Proofs.Files.Frame

/-!
What is read once a file was saved. A path that led somewhere leads there still, since what was a
directory stays one, so that a file that was there before reads as before unless the saved one
has its place. Two paths lead to one place exactly if they resolve to one path, however they
are spelled.
-/
namespace DependencyAudit.FileTree

section Resolving
variable {tree other : FileTree} {env : Environment} {p q : Path}
  {place there start target : List String} {parts : List String} {content : List UInt8}

theorem foldl_descend_of_follow (h : tree.follow start parts = .ok target) :
    parts.foldl Environment.descend start = target := by
  induction parts generalizing start with
  | nil => exact Except.ok.inj h
  | cons part parts ih =>
      rw [follow] at h
      split at h
      case h_1 => cases h
      case h_2 => cases h
      case h_3 =>
        split at h
        case isTrue => cases h
        case isFalse => exact ih h

/-- Where a path leads can be told without the files, as long as it leads anywhere. -/
theorem resolve_of_placeOf (h : tree.placeOf env p = .ok place) :
    env.resolve p = .ok ⟨"/", place⟩ := by
  obtain ⟨whole, _, led⟩ := placeOf_eq_ok_iff.1 h
  simp [Environment.resolve, whole, foldl_descend_of_follow led]

theorem resolve_eq_iff (hp : tree.placeOf env p = .ok place) (hq : other.placeOf env q = .ok there) :
    env.resolve p = env.resolve q ↔ place = there := by
  simp [resolve_of_placeOf hp, resolve_of_placeOf hq]

theorem read_eq_ok_iff :
    tree.read env p = .ok content ↔
      ∃ place, tree.placeOf env p = .ok place ∧ tree.node? place = some (.file content) := by
  rw [read]
  split
  case h_1 cause led => simp [led]
  case h_2 place led =>
    split <;> simp_all

end Resolving

section Saving
variable {tree after : FileTree} {env : Environment} {p q : Path}
  {place : List String} {node : Node} {text : String} {content : List UInt8}

/-- Where something stood nothing was opened. -/
theorem node?_kept {opened : Prop} (stands : tree.node? place = some node)
    (h : after.node? place = tree.node? place ∨ tree.node? place = none ∧ opened) :
    after.node? place = some node := by
  obtain same | ⟨free, _⟩ := h
  · exact same.trans stands
  · cases free.symm.trans stands

theorem directory_of_save (h : tree.save env p text = .ok after)
    (isDirectory : tree.node? place = some .directory) : after.node? place = some .directory := by
  obtain ⟨made, opened, written⟩ := bind_eq_ok_iff.1 h
  exact directory_of_write written
    (node?_kept isDirectory (onlyOpens_makeDirectoriesUp opened place))

theorem placeOf_of_save (h : tree.save env p text = .ok after)
    (led : tree.placeOf env q = .ok place) : after.placeOf env q = .ok place :=
  placeOf_of_directories led fun _ => directory_of_save h

/-- A file whose path leads elsewhere than that of the saved one reads as before. -/
theorem read_of_save_elsewhere (h : tree.save env p text = .ok after)
    (old : tree.read env q = .ok content) (apart : env.resolve p ≠ env.resolve q) :
    after.read env q = .ok content := by
  obtain ⟨there, led, file⟩ := read_eq_ok_iff.1 old
  obtain ⟨place, saved⟩ := exists_saved h
  have elsewhere : there ≠ place := by
    rintro rfl
    exact apart ((resolve_eq_iff saved.leads led).2 rfl)
  have kept := node?_kept file (saved.other there elsewhere)
  exact read_eq_ok_iff.2 ⟨there, placeOf_of_save h led, kept⟩

/-- A path that led somewhere before finds the saved file under any spelling of its path. -/
theorem read_of_save_here (h : tree.save env p text = .ok after)
    (led : tree.placeOf env q = .ok place) (same : env.resolve p = env.resolve q) :
    after.read env q = .ok text.toUTF8.toList := by
  obtain ⟨written, saved⟩ := exists_saved h
  obtain rfl := (resolve_eq_iff saved.leads led).1 same
  exact read_eq_ok_iff.2 ⟨written, placeOf_of_save h led, saved.file⟩

end Saving
end DependencyAudit.FileTree
