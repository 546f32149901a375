import DependencyAudit.Document.Literal
import DependencyAudit.Proofs.Json.Reading
import DependencyAudit.Proofs.Number.Shortest

/-!
How much a JSON text may hold. What is read never holds a number with too many digits to be
shown. The reader gives up for another reason than a fault in the text only at a longer run of
digits, or where more brackets were opened than may be open.
-/
namespace DependencyAudit.Json

/-- A text holds a run of so many digits, and those are too many for a number. -/
def HasLongRun (text : List Char) (n : Nat) : Prop :=
  ∃ digits, digits <:+: text ∧ (∀ c ∈ digits, isDigit c = true) ∧ digits.length = n ∧
    Reading.digitLimit < n

/-- What a token says of numbers, as far as it was read from a text. -/
structure Limited (text : List Char) (t : Token) : Prop where
  value : ∀ v, t = .value v → v.isLong = false
  long : ∀ n, t = .longNumber n → HasLongRun text n

section Tokens
variable {pos skip : Nat} {s text : List Char} {p : Placed} {v : Scalar} {n : Nat}
  {negative : Bool} {r : Token × List Char}

/-- Every token is what stands in front somewhere in the text. -/
theorem exists_front (h : p ∈ tokensFrom pos skip s) :
    ∃ place c rest, c :: rest <:+ s ∧ p.token = (front place c rest).1 := by
  induction s generalizing pos skip with
  | nil => cases skip <;> cases h
  | cons c s ih =>
      have further {pos skip : Nat} (h : p ∈ tokensFrom pos skip s) :
          ∃ place d rest, d :: rest <:+ c :: s ∧ p.token = (front place d rest).1 := by
        obtain ⟨place, d, rest, behind, same⟩ := ih h
        exact ⟨place, d, rest, behind.trans (List.suffix_cons c s), same⟩
      cases skip with
      | succ skip => exact further h
      | zero =>
          rw [tokensFrom] at h
          split at h
          case isTrue => exact further h
          case isFalse =>
            obtain rfl | behind := List.mem_cons.1 h
            · exact ⟨pos, c, s, List.suffix_rfl, rfl⟩
            · exact further behind

theorem isDigit_of_mem_takeDigits {c : Char} (h : c ∈ (takeDigits s).1) : isDigit c = true :=
  List.all_eq_true.1 (List.all_takeWhile) c h

theorem natOfDigits_lt_pow (digits : ∀ c ∈ s, isDigit c = true) (short : s.length ≤ n) :
    natOfDigits s < Nat.pow 10 n :=
  (natOfDigits_lt digits).trans_le (Nat.pow_le_pow_right (by decide) short)

theorem isLong_signedValue (digits : ∀ c ∈ s, isDigit c = true)
    (short : s.length ≤ Reading.digitLimit) :
    (Scalar.int (Reading.signedValue negative s)).isLong = false := by
  have size : (Reading.signedValue negative s).natAbs = natOfDigits s := by
    unfold Reading.signedValue
    split <;> simp
  rw [Scalar.isLong, size, decide_eq_false_iff_not, not_le]
  exact natOfDigits_lt_pow digits short

theorem HasLongRun.mono (h : HasLongRun s n) (part : s <:+: text) : HasLongRun text n := by
  obtain ⟨digits, run, rest⟩ := h
  exact ⟨digits, run.trans part, rest⟩

theorem Limited.mono {t : Token} (h : Limited s t) (part : s <:+: text) : Limited text t :=
  ⟨h.value, fun n same => (h.long n same).mono part⟩

/-- A token that says nothing of numbers. -/
theorem limited_other {t : Token} (value : ∀ v, t ≠ .value v) (long : ∀ n, t ≠ .longNumber n) :
    Limited text t :=
  ⟨fun v same => absurd same (value v), fun n same => absurd same (long n)⟩

theorem limited_value (short : v.isLong = false) : Limited text (.value v) :=
  ⟨fun _ same => Token.value.inj same ▸ short, nofun⟩

theorem limited_number (h : number? negative s = some r) : Limited s r.1 := by
  unfold number? at h
  split at h
  case h_1 whole afterWhole parted =>
    have digits : (∀ c ∈ whole, isDigit c = true) ∧ whole <+: s := by
      split at parted
      case h_1 =>
        cases parted
        exact ⟨by simp [isDigit], _, rfl⟩
      case h_2 =>
        obtain rfl : (takeDigits s).1 = whole := congrArg Prod.fst parted
        exact ⟨fun c => isDigit_of_mem_takeDigits, List.takeWhile_prefix _⟩
    dsimp only at h
    split at h
    case isTrue => cases h
    case isFalse =>
      split at h
      case h_1 =>
        cases h
        exact limited_value rfl
      case h_2 =>
        split at h
        case isTrue =>
          cases h
          exact limited_value rfl
        case isFalse =>
          split at h
          case isTrue long =>
            cases h
            refine ⟨fun v same => ?_, fun n same => ?_⟩ <;> cases same
            exact ⟨whole, digits.2.isInfix, digits.1, rfl, long⟩
          case isFalse short =>
            cases h
            exact limited_value (isLong_signedValue digits.1 (not_lt.1 short))

/-- A number, a word or junk is all that stands for itself. -/
theorem numberOrWord_cases (holds : Token → Prop) (junk : holds .junk)
    (word : ∀ entry ∈ words, holds (.value entry.2))
    (number : ∀ negative t r, t <:+ s → number? negative t = some r → holds r.1) :
    holds (numberOrWord s).1 := by
  have orJunk {read : Option (Token × List Char)} {rest : List Char}
      (h : ∀ r, read = some r → holds r.1) : holds (read.getD (.junk, rest)).1 := by
    cases read with
    | none => exact junk
    | some r => exact h r rfl
  unfold numberOrWord
  split
  case h_1 r found =>
    obtain ⟨⟨w, v⟩, listed, found⟩ := List.exists_of_findSome?_eq_some found
    obtain ⟨rest, _, rfl⟩ := Option.map_eq_some_iff.1 found
    exact word _ listed
  case h_2 =>
    refine orJunk fun r found => ?_
    split at found
    case h_1 => exact number true _ r (List.suffix_cons _ _) found
    case h_2 => exact number false s r List.suffix_rfl found

theorem limited_numberOrWord (s : List Char) : Limited s (numberOrWord s).1 := by
  refine numberOrWord_cases (Limited s) (limited_other nofun nofun) ?_ ?_
  · have short : ∀ entry ∈ words, entry.2.isLong = false := by simp [words, Scalar.isLong]
    exact fun entry listed => limited_value (short entry listed)
  · exact fun _ _ _ behind found => (limited_number found).mono behind.isInfix

/-- The token of a string is no number and opens nothing. -/
theorem stringToken_cases (content : List (Option Char)) :
    ∃ s, stringToken content = .string s ∨ stringToken content = .halved s := by
  rw [stringToken]
  split
  · exact ⟨_, .inr rfl⟩
  · exact ⟨_, .inl rfl⟩

theorem limited_front (pos : Nat) (c : Char) (s : List Char) :
    Limited (c :: s) (front pos c s).1 := by
  unfold front
  split
  case h_7 =>
    split
    case h_1 content _ _ =>
      obtain ⟨_, same | same⟩ := stringToken_cases content <;> rw [same] <;>
        exact limited_other nofun nofun
    case h_2 => exact limited_other nofun nofun
  case h_8 => exact limited_numberOrWord (c :: s)
  all_goals exact limited_other nofun nofun

theorem limited_of_mem (h : p ∈ tokens text) : Limited text p.token := by
  obtain ⟨place, c, rest, behind, same⟩ := exists_front h
  exact same ▸ (limited_front place c rest).mono behind.isInfix

end Tokens

section Values
variable {text : List Char} {t : Tree} {key : String} {items : List Tree} {fields : Fields}

theorem anyEntryLong_put (short : t.isLong = false) (h : Tree.anyEntryLong fields = false) :
    Tree.anyEntryLong (Fields.put key t fields) = false := by
  induction fields with
  | nil => simp [Fields.put, Tree.anyEntryLong, short]
  | cons f fields ih =>
      rw [Tree.anyEntryLong, Bool.or_eq_false_iff] at h
      rw [Fields.put]
      split
      case isTrue => rw [Tree.anyEntryLong, short, h.2, Bool.or_false]
      case isFalse => rw [Tree.anyEntryLong, h.1, ih h.2, Bool.or_false]

/-- No number that is read has too many digits. -/
theorem isLong_read (h : read text = .ok t) : t.isLong = false := by
  have kept : Kept (·.isLong = false) (Tree.anyEntryLong · = false) (tokens text) :=
    { value := fun _ member v same => (limited_of_mem member).value v same
      text := fun _ => rfl
      halved := fun _ => rfl
      list := fun _ short => Tree.anyLong_eq_false_iff.2 short
      empty := rfl
      put := fun _ _ _ so short => anyEntryLong_put short so
      table := fun _ so => so }
  exact kept.read h

end Values

section Depth
variable {σ τ : State} {p : Placed} {ps : List Placed} {frames : List Frame} {fields : Fields}
  {last : Tree} {problem : Problem} {s text : List Char} {table : Bool} {n : Nat}

def Token.opens (t : Token) : Bool := t = .openList || t = .openTable

def isOpening (c : Char) : Bool := c = '[' || c = '\x7b'

/-- How many containers are open. A table has no frame while a key is awaited. -/
def State.depth (σ : State) : Nat :=
  match σ.expects with
  | .keyOrClose _ | .key _ => σ.frames.length + 1
  | _ => σ.frames.length

theorem depth_beginValue (h : beginValue frames p = .ok τ) :
    τ.depth ≤ frames.length + p.token.opens.toNat := by
  unfold beginValue at h
  split at h
  case h_1 token =>
    obtain ⟨_, rfl⟩ := openContainer_eq_ok_iff.1 h
    simp [State.depth, token, Token.opens]
  case h_2 token =>
    obtain ⟨_, rfl⟩ := openContainer_eq_ok_iff.1 h
    simp [State.depth, token, Token.opens]
  case h_3 | h_4 | h_5 =>
    cases h
    exact Nat.le_add_right _ _
  all_goals cases h

theorem depth_beginKey (h : beginKey frames fields p = .ok τ) : τ.depth ≤ frames.length + 1 := by
  unfold beginKey at h
  split at h
  case h_1 | h_2 =>
    cases h
    exact Nat.le_refl _
  all_goals cases h

theorem depth_afterValue (h : afterValue frames last p = .ok τ) : τ.depth ≤ frames.length := by
  unfold afterValue at h
  split at h
  case h_1 => cases h
  case h_6 => cases h
  all_goals
    cases h
    simp [State.depth, State.complete]

/-- One token opens at most one container. -/
theorem State.depth_step (h : σ.step p = .ok τ) : τ.depth ≤ σ.depth + p.token.opens.toNat := by
  obtain ⟨frames, expects⟩ := σ
  cases expects with
  | value => exact depth_beginValue h
  | itemOrClose =>
      simp only [State.step] at h
      split at h
      case h_1 =>
        cases h
        simp only [depth, complete, List.length_cons]
        omega
      case h_2 => exact depth_beginValue h
  | keyOrClose fields =>
      simp only [State.step] at h
      split at h
      case h_1 =>
        cases h
        simp only [depth, complete]
        omega
      case h_2 => exact (depth_beginKey h).trans (Nat.le_add_right _ _)
  | key fields => exact (depth_beginKey h).trans (Nat.le_add_right _ _)
  | colon =>
      simp only [State.step] at h
      split at h
      case h_1 =>
        cases h
        exact Nat.le_add_right _ _
      case h_2 => cases h
  | commaOrClose last => exact (depth_afterValue h).trans (Nat.le_add_right _ _)

/-- Why a token is refused: for a fault in the text, or since it has too many digits or opens
more than may be open. -/
inductive Refused (depth : Nat) (p : Placed) : Problem → Prop
  | fault (f : Fault) : Refused depth p (.fault f)
  | long (n : Nat) : p.token = .longNumber n → Refused depth p (.longNumber n)
  | nested (table : Bool) : p.token.opens = true → nestingLimit ≤ depth →
      Refused depth p (.nested table)

theorem Refused.mono {depth further : Nat} (h : Refused depth p problem) (le : depth ≤ further) :
    Refused further p problem := by
  cases h with
  | fault f => exact .fault f
  | long n token => exact .long n token
  | nested table opens full => exact .nested table opens (full.trans le)

theorem refused_openContainer {inside : State} (opens : p.token.opens = true)
    (h : openContainer frames table inside = .error problem) :
    Refused frames.length p problem := by
  unfold openContainer at h
  split at h
  case isTrue => cases h
  case isFalse full =>
    cases h
    exact .nested table opens (not_lt.1 full)

theorem refused_beginValue (h : beginValue frames p = .error problem) :
    Refused frames.length p problem := by
  unfold beginValue at h
  split at h
  case h_1 token => exact refused_openContainer (by rw [token]; rfl) h
  case h_2 token => exact refused_openContainer (by rw [token]; rfl) h
  case h_3 | h_4 | h_5 => cases h
  case h_6 =>
    cases h
    exact .fault _
  case h_7 n token =>
    cases h
    exact .long n token
  case h_8 =>
    cases h
    exact .fault _

theorem refused_beginKey {depth : Nat} (h : beginKey frames fields p = .error problem) :
    Refused depth p problem := by
  unfold beginKey at h
  split at h <;> cases h <;> exact .fault _

theorem State.refused_step (h : σ.step p = .error problem) : Refused σ.depth p problem := by
  obtain ⟨frames, expects⟩ := σ
  cases expects with
  | value => exact refused_beginValue h
  | itemOrClose =>
      simp only [State.step] at h
      split at h
      case h_1 => cases h
      case h_2 => exact refused_beginValue h
  | keyOrClose fields =>
      simp only [State.step] at h
      split at h
      case h_1 => cases h
      case h_2 => exact refused_beginKey h
  | key fields => exact refused_beginKey h
  | colon =>
      simp only [State.step] at h
      split at h <;> cases h
      exact .fault _
  | commaOrClose last =>
      simp only [State.step] at h
      unfold afterValue at h
      split at h <;> cases h <;> exact .fault _

/-- What stops a run is one token of it, behind those that it took. -/
theorem State.exists_refused (h : ps.foldlM State.step σ = .error problem) :
    ∃ before p after, ps = before ++ p :: after ∧
      Refused (σ.depth + before.countP (·.token.opens)) p problem := by
  induction ps generalizing σ with
  | nil => cases h
  | cons p ps ih =>
      rw [List.foldlM_cons] at h
      obtain refused | ⟨τ, first, rest⟩ := bind_eq_error_iff.1 h
      · exact ⟨[], p, ps, rfl, (refused_step refused).mono (Nat.le_add_right _ _)⟩
      · obtain ⟨before, q, after, rfl, refused⟩ := ih rest
        refine ⟨p :: before, q, after, rfl, refused.mono ?_⟩
        have step := depth_step first
        rw [List.countP_cons]
        cases opens : p.token.opens <;> simp [opens] at step ⊢ <;> omega

theorem opens_number {negative : Bool} {r : Token × List Char} (h : number? negative s = some r) :
    r.1.opens = false := by
  unfold number? at h
  split at h
  dsimp only at h
  repeat' split at h
  all_goals cases h
  all_goals rfl

theorem opens_numberOrWord (s : List Char) : (numberOrWord s).1.opens = false :=
  numberOrWord_cases (·.opens = false) rfl (fun _ _ => rfl) fun _ _ _ _ found =>
    opens_number found

theorem opens_front {pos : Nat} {c : Char} (h : (front pos c s).1.opens = true) :
    isOpening c = true := by
  unfold front at h
  split at h
  case h_1 => rfl
  case h_3 => rfl
  case h_7 =>
    split at h
    case h_1 content _ _ =>
      obtain ⟨_, same | same⟩ := stringToken_cases content <;> rw [same] at h <;> cases h
    case h_2 => cases h
  case h_8 => exact nomatch h.symm.trans (opens_numberOrWord (c :: s))
  all_goals cases h

theorem countP_tokensFrom_le (pos skip : Nat) (s : List Char) :
    (tokensFrom pos skip s).countP (·.token.opens) ≤ s.countP isOpening := by
  induction s generalizing pos skip with
  | nil => cases skip <;> exact Nat.le_refl _
  | cons c s ih =>
      rw [List.countP_cons]
      cases skip with
      | succ skip => exact (ih (pos + 1) skip).trans (Nat.le_add_right _ _)
      | zero =>
          rw [tokensFrom]
          split
          case isTrue => exact (ih (pos + 1) 0).trans (Nat.le_add_right _ _)
          case isFalse =>
            rw [List.countP_cons]
            refine Nat.add_le_add (ih _ _) ?_
            by_cases opens : (front pos c s).1.opens = true
            · simp [opens, opens_front opens]
            · simp [opens]

end Depth

/-- Reading gives up for another reason than a fault in the text only at a run of too many
digits, or if more brackets are opened than containers may be open. -/
theorem read_eq_error {text : List Char} {problem : Problem} (h : read text = .error problem) :
    (∃ f, problem = .fault f) ∨ (∃ n, problem = .longNumber n ∧ HasLongRun text n) ∨
      ∃ table, problem = .nested table ∧ nestingLimit < text.countP isOpening := by
  unfold read at h
  split at h
  case h_1 =>
    cases h
    exact .inl ⟨_, rfl⟩
  case h_2 =>
    obtain refused | ⟨σ, _, h⟩ := bind_eq_error_iff.1 h
    · obtain ⟨before, p, after, cut, refused⟩ := State.exists_refused refused
      cases refused with
      | fault f => exact .inl ⟨f, rfl⟩
      | long n token =>
          have member : p ∈ tokens text := cut ▸ List.mem_append_right _ List.mem_cons_self
          exact .inr (.inl ⟨n, rfl, (limited_of_mem member).long n token⟩)
      | nested table opens full =>
          have count := countP_tokensFrom_le 0 0 text
          rw [show tokensFrom 0 0 text = before ++ p :: after from cut, List.countP_append,
            List.countP_cons, if_pos opens] at count
          have start : State.start.depth = 0 := rfl
          exact .inr (.inr ⟨table, rfl, by omega⟩)
    · unfold State.finish at h
      split at h <;> cases h <;> exact .inl ⟨_, rfl⟩

end DependencyAudit.Json
