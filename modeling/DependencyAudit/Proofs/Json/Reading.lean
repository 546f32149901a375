import DependencyAudit.Json.Reading
import DependencyAudit.Proofs.Document.Merge
import DependencyAudit.Proofs.Results

/-!
What is read from a JSON text. The reader builds its tree from the scalars of the tokens, by
lists and by entries that are put into tables, so what these steps keep holds of whatever is
read. A key that is given twice is put into its table once.
-/
namespace DependencyAudit.Json

/-- What is kept by the steps that build a tree from the tokens of a text: of trees, and of
tables as far as their entries are known. -/
structure Kept (holds : Tree → Prop) (holdsSoFar : Fields → Prop) (ps : List Placed) : Prop where
  value : ∀ p ∈ ps, ∀ s, p.token = .value s → holds (.scalar s)
  text : ∀ s, holds (.text s)
  halved : ∀ s, holds (.scalar (.halved s))
  list : ∀ items : List Tree, (∀ t ∈ items, holds t) → holds (.list items)
  empty : holdsSoFar []
  put : ∀ fields key t, holdsSoFar fields → holds t → holdsSoFar (Fields.put key t fields)
  table : ∀ fields, holdsSoFar fields → holds (.table fields)

section Kept
variable {holds : Tree → Prop} {holdsSoFar : Fields → Prop} {ps : List Placed} {p : Placed}
  {frames : List Frame} {fields : Fields} {σ τ : State} {t : Tree}

def Frame.Holds (holds : Tree → Prop) (holdsSoFar : Fields → Prop) : Frame → Prop
  | .list items => ∀ t ∈ items, holds t
  | .table fields _ => holdsSoFar fields

def Expects.Holds (holds : Tree → Prop) (holdsSoFar : Fields → Prop) : Expects → Prop
  | .keyOrClose fields | .key fields => holdsSoFar fields
  | .commaOrClose last => holds last
  | .value | .itemOrClose | .colon => True

/-- All that a reader has built so far. -/
structure State.Holds (holds : Tree → Prop) (holdsSoFar : Fields → Prop) (σ : State) : Prop where
  frames : ∀ f ∈ σ.frames, f.Holds holds holdsSoFar
  expects : σ.expects.Holds holds holdsSoFar

theorem openContainer_eq_ok_iff {table : Bool} :
    openContainer frames table σ = .ok τ ↔ frames.length < nestingLimit ∧ σ = τ := by
  unfold openContainer
  split
  case isTrue room => simp [room]
  case isFalse full => simp [full]

theorem Kept.beginValue (kept : Kept holds holdsSoFar ps) (member : p ∈ ps)
    (h : ∀ f ∈ frames, f.Holds holds holdsSoFar) (stepped : beginValue frames p = .ok σ) :
    σ.Holds holds holdsSoFar := by
  unfold Json.beginValue at stepped
  split at stepped
  case h_1 =>
    obtain ⟨_, rfl⟩ := openContainer_eq_ok_iff.1 stepped
    exact ⟨List.forall_mem_cons.2 ⟨nofun, h⟩, trivial⟩
  case h_2 =>
    obtain ⟨_, rfl⟩ := openContainer_eq_ok_iff.1 stepped
    exact ⟨h, kept.empty⟩
  case h_3 s token =>
    cases stepped
    exact ⟨h, kept.value p member s token⟩
  case h_4 s _ =>
    cases stepped
    exact ⟨h, kept.text _⟩
  case h_5 s _ =>
    cases stepped
    exact ⟨h, kept.halved _⟩
  all_goals cases stepped

theorem beginKey_holds (h : ∀ f ∈ frames, f.Holds holds holdsSoFar) (so : holdsSoFar fields)
    (stepped : beginKey frames fields p = .ok σ) : σ.Holds holds holdsSoFar := by
  unfold beginKey at stepped
  split at stepped
  case h_1 | h_2 =>
    cases stepped
    exact ⟨List.forall_mem_cons.2 ⟨so, h⟩, trivial⟩
  all_goals cases stepped

theorem Kept.afterValue (kept : Kept holds holdsSoFar ps)
    (h : ∀ f ∈ frames, f.Holds holds holdsSoFar) (last : holds t)
    (stepped : afterValue frames t p = .ok σ) : σ.Holds holds holdsSoFar := by
  unfold Json.afterValue at stepped
  split at stepped
  case h_1 => cases stepped
  case h_2 items outer _ =>
    cases stepped
    obtain ⟨old, outer⟩ := List.forall_mem_cons.1 h
    exact ⟨List.forall_mem_cons.2 ⟨List.forall_mem_cons.2 ⟨last, old⟩, outer⟩, trivial⟩
  case h_3 items outer _ =>
    cases stepped
    obtain ⟨old, outer⟩ := List.forall_mem_cons.1 h
    refine ⟨outer, kept.list _ fun u hu => ?_⟩
    exact List.forall_mem_cons.2 ⟨last, old⟩ u (List.mem_reverse.1 hu)
  case h_4 fields key outer _ =>
    cases stepped
    obtain ⟨old, outer⟩ := List.forall_mem_cons.1 h
    exact ⟨outer, kept.put fields key t old last⟩
  case h_5 fields key outer _ =>
    cases stepped
    obtain ⟨old, outer⟩ := List.forall_mem_cons.1 h
    exact ⟨outer, kept.table _ (kept.put fields key t old last)⟩
  case h_6 => cases stepped

/-- One token keeps it. -/
theorem Kept.step (kept : Kept holds holdsSoFar ps) (member : p ∈ ps)
    (h : σ.Holds holds holdsSoFar) (stepped : σ.step p = .ok τ) : τ.Holds holds holdsSoFar := by
  obtain ⟨frames, expects⟩ := σ
  obtain ⟨held, so⟩ := h
  cases expects with
  | value => exact kept.beginValue member held stepped
  | itemOrClose =>
      simp only [State.step] at stepped
      split at stepped
      case h_1 items outer _ =>
        cases stepped
        obtain ⟨old, outer⟩ := List.forall_mem_cons.1 held
        exact ⟨outer, kept.list _ fun u hu => old u (List.mem_reverse.1 hu)⟩
      case h_2 => exact kept.beginValue member held stepped
  | keyOrClose fields =>
      simp only [State.step] at stepped
      split at stepped
      case h_1 =>
        cases stepped
        exact ⟨held, kept.table fields so⟩
      case h_2 => exact beginKey_holds held so stepped
  | key fields => exact beginKey_holds held so stepped
  | colon =>
      simp only [State.step] at stepped
      split at stepped
      case h_1 =>
        cases stepped
        exact ⟨held, trivial⟩
      case h_2 => cases stepped
  | commaOrClose last => exact kept.afterValue held so stepped

/-- All tokens together keep it. -/
theorem Kept.run {qs : List Placed} (kept : Kept holds holdsSoFar ps) (members : ∀ q ∈ qs, q ∈ ps)
    (h : σ.Holds holds holdsSoFar) (run : qs.foldlM State.step σ = .ok τ) :
    τ.Holds holds holdsSoFar := by
  induction qs generalizing σ with
  | nil =>
      cases run
      exact h
  | cons q qs ih =>
      rw [List.foldlM_cons] at run
      obtain ⟨ρ, first, rest⟩ := bind_eq_ok_iff.1 run
      obtain ⟨member, members⟩ := List.forall_mem_cons.1 members
      exact ih members (kept.step member h first) rest

theorem finish_eq_ok {length : Nat} (h : σ.finish length = .ok t) :
    σ.expects = .commaOrClose t := by
  unfold State.finish at h
  split at h
  case h_1 expects _ =>
    cases h
    exact expects
  all_goals cases h

theorem read_eq_ok {text : List Char} (h : read text = .ok t) :
    ∃ σ, (tokens text).foldlM State.step .start = .ok σ ∧ σ.finish text.length = .ok t := by
  unfold read at h
  split at h
  case h_1 => cases h
  case h_2 => exact bind_eq_ok_iff.1 h

theorem Kept.read {text : List Char} (kept : Kept holds holdsSoFar (tokens text))
    (h : read text = .ok t) : holds t := by
  obtain ⟨σ, run, finish⟩ := read_eq_ok h
  have start : State.start.Holds holds holdsSoFar := ⟨nofun, trivial⟩
  have whole := (kept.run (fun _ member => member) start run).expects
  rwa [finish_eq_ok finish] at whole

end Kept

theorem keyedOnce_read {text : List Char} {t : Tree} (h : read text = .ok t) : t.KeyedOnce := by
  have kept : Kept Tree.KeyedOnce (fun fields => (Tree.table fields).KeyedOnce) (tokens text) :=
    { value := fun _ _ s _ => .scalar s
      text := fun s => .scalar (.text s)
      halved := fun s => .scalar (.halved s)
      list := fun _ each => .list each
      empty := Tree.keyedOnce_empty
      put := fun _ _ _ so once => so.put once
      table := fun _ so => so }
  exact kept.read h

end DependencyAudit.Json
