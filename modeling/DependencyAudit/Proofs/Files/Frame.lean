import DependencyAudit.Proofs.Files.Save

/-!
What saving a file leaves alone. Directories may be made on the way to the file, where nothing
stood before; all else but the file is as it was.
-/
namespace DependencyAudit.FileTree

/-- Only directories may be new, and they only at places on the way. -/
def OnlyOpens (way : List (List String)) (tree after : FileTree) : Prop :=
  ∀ place, after.node? place = tree.node? place ∨
    tree.node? place = none ∧ after.node? place = some .directory ∧ place ∈ way

section OnlyOpens
variable {tree made after : FileTree} {way further : List (List String)}

theorem OnlyOpens.refl (way : List (List String)) (tree : FileTree) : OnlyOpens way tree tree :=
  fun _ => .inl rfl

theorem OnlyOpens.trans (first : OnlyOpens way tree made) (second : OnlyOpens way made after) :
    OnlyOpens way tree after := by
  intro place
  obtain same | ⟨free, opened, onWay⟩ := first place
  · rw [← same]
    exact second place
  · obtain same | ⟨free', _⟩ := second place
    · exact .inr ⟨free, same.trans opened, onWay⟩
    · rw [opened] at free'
      cases free'

theorem OnlyOpens.mono (h : OnlyOpens way tree after) (within : ∀ place ∈ way, place ∈ further) :
    OnlyOpens further tree after :=
  fun place => (h place).imp_right fun ⟨free, opened, onWay⟩ => ⟨free, opened, within place onWay⟩

end OnlyOpens

section Places
variable {tree after : FileTree} {env : Environment} {p : Path} {root part : String}
  {start place target : List String} {front rest above : List String} {content : List UInt8}

theorem mem_placesFrom_append (h : place ∈ placesFrom start front) :
    place ∈ placesFrom start (front ++ rest) := by
  induction front generalizing start with
  | nil =>
      obtain rfl := List.mem_singleton.1 h
      cases rest with
      | nil => exact List.mem_singleton.2 rfl
      | cons part rest => exact List.mem_cons_self
  | cons part front ih =>
      obtain rfl | behind := List.mem_cons.1 h
      · exact List.mem_cons_self
      · exact List.mem_cons_of_mem _ (ih behind)

theorem mem_places_of_isPrefix (before : front <+: rest) (h : place ∈ places env ⟨root, front⟩) :
    place ∈ places env ⟨root, rest⟩ := by
  obtain ⟨behind, rfl⟩ := before
  exact mem_placesFrom_append h

theorem mem_placesFrom_of_follow (h : tree.follow start front = .ok target) :
    target ∈ placesFrom start front := by
  induction front generalizing start with
  | nil =>
      cases h
      exact List.mem_singleton.2 rfl
  | cons part front ih =>
      rw [follow] at h
      split at h
      case h_1 => cases h
      case h_2 => cases h
      case h_3 =>
        split at h
        case isTrue => cases h
        case isFalse => exact List.mem_cons_of_mem _ (ih h)

theorem mem_places_of_placeOf (h : tree.placeOf env p = .ok place) : place ∈ places env p :=
  mem_placesFrom_of_follow (placeOf_eq_ok_iff.1 h).2.2

theorem onlyOpens_makeDirectory (h : tree.makeDirectory env p = .ok after) :
    OnlyOpens (places env p) tree after := by
  unfold makeDirectory at h
  split at h
  case h_1 => cases h
  case h_2 place led =>
    split at h
    case h_1 free =>
      cases h
      have nonempty : place ≠ [] := by
        rintro rfl
        cases free
      intro other
      rw [node?_put tree nonempty]
      split
      case isTrue same => exact .inr ⟨same ▸ free, rfl, same ▸ mem_places_of_placeOf led⟩
      case isFalse => exact .inl rfl
    case h_2 => cases h

theorem eq_of_orExisting {f : FileFault} (h : tree.orExisting env p f = .ok after) :
    after = tree := by
  unfold orExisting at h
  split at h
  case isTrue =>
    cases h
    rfl
  case isFalse => cases h

/-- One directory is made after those above it. -/
theorem onlyOpens_makeDirectoriesUp (h : tree.makeDirectoriesUp env root above = .ok after) :
    OnlyOpens (places env ⟨root, above.reverse⟩) tree after := by
  induction above generalizing after with
  | nil =>
      rw [makeDirectoriesUp] at h
      split at h
      case h_1 made =>
        cases h
        exact onlyOpens_makeDirectory made
      case h_2 =>
        cases eq_of_orExisting h
        exact .refl _ tree
  | cons part above ih =>
      rw [makeDirectoriesUp] at h
      split at h
      case h_1 made =>
        cases h
        exact onlyOpens_makeDirectory made
      case h_2 f _ =>
        split at h
        case isTrue =>
          split at h
          case h_1 => cases h
          case h_2 made opened =>
            have before : above.reverse <+: (part :: above).reverse :=
              ⟨[part], by rw [List.reverse_cons]⟩
            have first := (ih opened).mono fun _ => mem_places_of_isPrefix before
            split at h
            case h_1 last =>
              cases h
              exact first.trans (onlyOpens_makeDirectory last)
            case h_2 =>
              cases eq_of_orExisting h
              exact first
        case isFalse =>
          cases eq_of_orExisting h
          exact .refl _ tree

/-- A file stands where its path leads, and else only directories on the way may be new. -/
structure Saved (env : Environment) (p : Path) (content : List UInt8) (tree after : FileTree)
    (place : List String) : Prop where
  leads : after.placeOf env p = .ok place
  file : after.node? place = some (.file content)
  other : ∀ other, other ≠ place → after.node? other = tree.node? other ∨
    tree.node? other = none ∧ after.node? other = some .directory ∧ other ∈ places env p.parent

theorem exists_saved {text : String} (h : tree.save env p text = .ok after) :
    ∃ place, Saved env p text.toUTF8.toList tree after place := by
  obtain ⟨made, opened, written⟩ := bind_eq_ok_iff.1 h
  obtain ⟨place, leads, file, kept⟩ := exists_of_write written
  have opens := onlyOpens_makeDirectoriesUp opened
  rw [List.reverse_reverse] at opens
  exact ⟨place, leads, file, fun other apart => kept other apart ▸ opens other⟩

end Places
end DependencyAudit.FileTree
