import DependencyAudit.Json.Reading
import DependencyAudit.Proofs.Json.Number
import DependencyAudit.Proofs.Json.Strings

/-!
What is written as JSON is read back. Reading goes on token by token from a state and a text;
a value that is expected and stands in front is taken as a whole, whatever containers are
open around it. The places of tokens matter to faults only.
-/
namespace DependencyAudit.Json

/-- Reading goes on from one state and text to another, wherever in the document it is. -/
def Leads (a b : State × List Char) : Prop :=
  ∀ pos, ∃ pos', (tokensFrom pos 0 a.2).foldlM State.step a.1
    = (tokensFrom pos' 0 b.2).foldlM State.step b.1

section Tokens
variable {a b c : State × List Char} {σ τ : State} {s w rest : List Char} {d : Char} {t : Token}

theorem Leads.refl (a : State × List Char) : Leads a a := fun pos => ⟨pos, rfl⟩

theorem Leads.trans (h : Leads a b) (h' : Leads b c) : Leads a c := by
  intro pos
  obtain ⟨next, first⟩ := h pos
  obtain ⟨last, second⟩ := h' next
  exact ⟨last, first.trans second⟩

instance : Trans Leads Leads Leads := ⟨Leads.trans⟩

theorem tokensFrom_append (pos : Nat) (w rest : List Char) :
    tokensFrom pos w.length (w ++ rest) = tokensFrom (pos + w.length) 0 rest := by
  induction w generalizing pos with
  | nil => rfl
  | cons c w ih =>
      rw [List.length_cons, List.cons_append, tokensFrom, ih]
      congr 1
      omega

theorem leads_space (h : isSpace d = true) : Leads (σ, d :: s) (σ, s) := by
  intro pos
  refine ⟨pos + 1, ?_⟩
  simp [tokensFrom, h]

theorem leads_spaces (h : ∀ d ∈ w, isSpace d = true) : Leads (σ, w ++ s) (σ, s) := by
  induction w with
  | nil => exact .refl _
  | cons d w ih =>
      exact (leads_space (h d List.mem_cons_self)).trans
        (ih fun d hd => h d (List.mem_cons_of_mem _ hd))

theorem leads_token (visible : isSpace d = false)
    (begins : ∀ pos, front pos d (w ++ rest) = (t, w.length))
    (step : ∀ pos, σ.step ⟨t, pos⟩ = .ok τ) : Leads (σ, d :: (w ++ rest)) (τ, rest) := by
  intro pos
  refine ⟨pos + 1 + w.length, ?_⟩
  rw [← tokensFrom_append]
  simp [tokensFrom, visible, begins, step, List.foldlM_cons]
  rfl

theorem leads_sign (visible : isSpace d = false) (begins : ∀ pos s, front pos d s = (t, 0))
    (step : ∀ pos, σ.step ⟨t, pos⟩ = .ok τ) : Leads (σ, d :: rest) (τ, rest) :=
  leads_token (w := []) visible (fun pos => begins pos rest) step

/-- A number or a word is the token at its place. -/
theorem front_of_value {v : Scalar} (h : numberOrWord (d :: s) = (.value v, rest)) :
    isSpace d = false ∧ ∀ pos, front pos d s = (.value v, s.length - rest.length) := by
  obtain ⟨c, u, same, starts⟩ := starts_of_numberOrWord h
  obtain ⟨rfl, rfl⟩ := List.cons.inj same
  have other : d ∉ ['[', ']', '\x7b', '\x7d', ':', ',', '"', ' ', '\t', '\n', '\r'] := by
    intro sign
    simp only [List.mem_cons, List.not_mem_nil, or_false] at sign
    rcases sign with rfl | rfl | rfl | rfl | rfl | rfl | rfl | rfl | rfl | rfl | rfl <;>
      revert starts <;> decide
  simp only [List.mem_cons, List.not_mem_nil, or_false, not_or] at other
  refine ⟨by simp [isSpace, other], fun pos => ?_⟩
  simp [front, other, h]

theorem front_of_string (asciiOnly : Bool) (s : String) (pos : Nat) (rest : List Char) :
    front pos '"' (s.toList.flatMap (escape asciiOnly) ++ ['"'] ++ rest)
      = (.string s.toList, (s.toList.flatMap (escape asciiOnly) ++ ['"']).length) := by
  simp [front, stringBody_append, stringToken_map_some]

end Tokens

section Values
variable {σ : State} {w rest : List Char} {v : Scalar} {asciiOnly : Bool} {p : Placed}
  {fields : Fields}

/-- Whether a value may stand next. -/
def Expects.takesValue : Expects → Bool
  | .value => true
  | .itemOrClose => true
  | _ => false

/-- The entries so far, if a key may stand next. -/
def Expects.beforeKey? : Expects → Option Fields
  | .keyOrClose fields => some fields
  | .key fields => some fields
  | _ => none

theorem step_value (takes : σ.expects.takesValue = true) (opened : p.token ≠ .closeList) :
    σ.step p = beginValue σ.frames p := by
  obtain ⟨frames, expects⟩ := σ
  cases expects <;> cases takes
  · rfl
  · simp [State.step, opened]

theorem step_key (takes : σ.expects.beforeKey? = some fields) (opened : p.token ≠ .closeTable) :
    σ.step p = beginKey σ.frames fields p := by
  obtain ⟨frames, expects⟩ := σ
  cases expects <;> cases takes
  · simp [State.step]
  · rfl

/-- Text that is taken for a number or a word wherever it is not gone on with. -/
def Spells (w : List Char) (v : Scalar) : Prop :=
  ∀ rest, Stops rest → numberOrWord (w ++ rest) = (.value v, rest)

theorem Spells.leads (h : Spells w v) (takes : σ.expects.takesValue = true) (stops : Stops rest) :
    Leads (σ, w ++ rest) (.complete σ.frames (.scalar v), rest) := by
  have alone := h [] (by simp [Stops])
  rw [List.append_nil] at alone
  obtain ⟨d, u, rfl, -⟩ := starts_of_numberOrWord alone
  have read := h rest stops
  obtain ⟨visible, begins⟩ := front_of_value read
  refine leads_token visible (fun pos => ?_)
    fun pos => step_value (p := ⟨.value v, pos⟩) takes (by simp)
  simpa using begins pos

theorem leads_string (takes : σ.expects.takesValue = true) (s : String) :
    Leads (σ, stringText asciiOnly s ++ rest) (.complete σ.frames (.text s), rest) := by
  refine leads_token (t := .string s.toList) rfl (front_of_string asciiOnly s · rest) fun pos => ?_
  simp [step_value takes, beginValue]

theorem leads_key (takes : σ.expects.beforeKey? = some fields) (key : String) :
    Leads (σ, stringText asciiOnly key ++ rest)
      (⟨.table fields key :: σ.frames, .colon⟩, rest) := by
  refine leads_token (t := .string key.toList) rfl (front_of_string asciiOnly key · rest)
    fun pos => ?_
  simp [step_key takes, beginKey]

end Values

/-- Trees that JSON has a form for, in a number of levels at most: scalars of its own and
tables that give each key once. -/
inductive Fits : Nat → Tree → Prop
  | null {room} : Fits room .null
  | bool {room} (b : Bool) : Fits room (.bool b)
  | int {room} (n : Int) : Fits room (.int n)
  | float {room} (x : Float) : Fits room (.float x)
  | text {room} (s : String) : Fits room (.text s)
  | list {room items} (each : ∀ t ∈ items, Fits room t) : Fits (room + 1) (.list items)
  | table {room fields} (distinct : (Fields.keys fields).Nodup)
      (each : ∀ f ∈ fields, Fits room f.2) : Fits (room + 1) (.table fields)

/-- A style that sets keys and values apart by a colon and blanks. -/
def Style.Spaced (style : Style) : Prop :=
  ∃ blanks, style.keyEnd = ':' :: blanks ∧ ∀ c ∈ blanks, isSpace c = true

/-- A tree is taken as a whole in front of any text that does not go on with a number. -/
def Taken (style : Style) (depth levels : Nat) (t : Tree) : Prop :=
  ∀ σ rest, σ.frames.length = levels → σ.expects.takesValue = true → Stops rest →
    Leads (σ, style.render depth t ++ rest) (.complete σ.frames t, rest)

section Containers
variable {style : Style} {depth : Nat} {frames : List Frame} {rest : List Char} {c : Char}
  {items acc : List Tree} {fields more : Fields} {last : Tree} {key : String} {levels : Nat}

theorem isSpace_of_mem_lineStart : ∀ c ∈ style.lineStart depth, isSpace c = true := by
  intro c hc
  unfold Style.lineStart at hc
  split at hc
  · cases hc
  · obtain rfl | hc := List.mem_cons.1 hc
    · rfl
    · rw [List.eq_of_mem_replicate hc]
      rfl

theorem stops_cons (h : c = ',' ∨ c = ']' ∨ c = '\x7d' ∨ c = '\n') : Stops (c :: rest) := by
  intro d hd
  cases hd
  rcases h with rfl | rfl | rfl | rfl <;> decide

theorem stops_close (h : c = ']' ∨ c = '\x7d') : Stops (style.lineStart depth ++ c :: rest) := by
  unfold Style.lineStart
  split
  · exact stops_cons (.inr (h.imp_right .inl))
  · exact stops_cons (by simp)

/-- Entries behind the first one, and the closing bracket. -/
def tailText (style : Style) (depth : Nat) (closing : Char) (entries : List (List Char)) :
    List Char :=
  entries.flatMap (fun e => ',' :: style.lineStart (depth + 1) ++ e) ++ style.lineStart depth
    ++ [closing]

theorem stops_tailText (entries : List (List Char)) (h : c = ']' ∨ c = '\x7d') :
    Stops (tailText style depth c entries ++ rest) := by
  cases entries with
  | nil => simpa [tailText] using stops_close h
  | cons e entries => exact stops_cons (.inl rfl)

theorem leads_tail_nil {σ τ : State} {t : Token} (visible : isSpace c = false)
    (begins : ∀ pos s, front pos c s = (t, 0)) (step : ∀ pos, σ.step ⟨t, pos⟩ = .ok τ) :
    Leads (σ, tailText style depth c [] ++ rest) (τ, rest) := by
  have text : tailText style depth c [] ++ rest = style.lineStart depth ++ c :: rest := by
    simp [tailText]
  rw [text]
  exact (leads_spaces isSpace_of_mem_lineStart).trans (leads_sign visible begins step)

theorem leads_tail_cons {σ τ : State} {e : List Char} {entries : List (List Char)}
    (step : ∀ pos, σ.step ⟨.comma, pos⟩ = .ok τ) :
    Leads (σ, tailText style depth c (e :: entries) ++ rest)
      (τ, e ++ (tailText style depth c entries ++ rest)) := by
  have text : tailText style depth c (e :: entries) ++ rest
      = ',' :: (style.lineStart (depth + 1)
        ++ (e ++ (tailText style depth c entries ++ rest))) := by
    simp [tailText]
  rw [text]
  exact (leads_sign rfl (fun _ _ => rfl) step).trans (leads_spaces isSpace_of_mem_lineStart)

theorem leads_items (each : ∀ t ∈ items, Taken style (depth + 1) (frames.length + 1) t) :
    Leads (.complete (.list acc :: frames) last,
        tailText style depth ']' (style.renderItems (depth + 1) items) ++ rest)
      (.complete frames (.list (acc.reverse ++ last :: items)), rest) := by
  induction items generalizing acc last with
  | nil =>
      rw [Style.renderItems]
      refine leads_tail_nil rfl (fun _ _ => rfl) fun pos => ?_
      simp [State.step, State.complete, afterValue]
  | cons t items ih =>
      rw [Style.renderItems]
      calc Leads (.complete (.list acc :: frames) last, _)
            (⟨.list (last :: acc) :: frames, .value⟩, _) := leads_tail_cons fun _ => rfl
        Leads _ (.complete (.list (last :: acc) :: frames) t, _) :=
          each t List.mem_cons_self _ _ rfl rfl (stops_tailText _ (.inl rfl))
        Leads _ (.complete frames (.list (acc.reverse ++ last :: t :: items)), rest) := by
          simpa using @ih (last :: acc) t fun u hu => each u (List.mem_cons_of_mem _ hu)

theorem put_of_not_mem {value : Tree} (h : key ∉ Fields.keys fields) :
    Fields.put key value fields = fields ++ [(key, value)] := by
  induction fields with
  | nil => rfl
  | cons f fields ih =>
      simp only [Fields.keys, List.map_cons, List.mem_cons, not_or] at h
      simp [Fields.put, Ne.symm h.1, ih h.2]

theorem leads_entry (spaced : style.Spaced) {σ : State} {t : Tree}
    (takes : σ.expects.beforeKey? = some fields)
    (value : Taken style depth (σ.frames.length + 1) t) (stops : Stops rest) :
    Leads (σ, stringText style.asciiOnly key ++ style.keyEnd ++ style.render depth t ++ rest)
      (.complete (.table fields key :: σ.frames) t, rest) := by
  obtain ⟨blanks, keyEnd, space⟩ := spaced
  have text : stringText style.asciiOnly key ++ style.keyEnd ++ style.render depth t ++ rest
      = stringText style.asciiOnly key ++ ':' :: (blanks ++ (style.render depth t ++ rest)) := by
    simp [keyEnd]
  rw [text]
  calc Leads (σ, _) (⟨.table fields key :: σ.frames, .colon⟩, _) := leads_key takes key
    Leads _ (⟨.table fields key :: σ.frames, .value⟩, _) :=
      leads_sign rfl (fun _ _ => rfl) fun _ => rfl
    Leads _ (⟨.table fields key :: σ.frames, .value⟩, _) := leads_spaces space
    Leads _ (.complete (.table fields key :: σ.frames) t, rest) := value _ rest rfl rfl stops

theorem leads_fields (spaced : style.Spaced)
    (distinct : (Fields.keys fields ++ key :: Fields.keys more).Nodup)
    (each : ∀ f ∈ more, Taken style (depth + 1) (frames.length + 1) f.2) :
    Leads (.complete (.table fields key :: frames) last,
        tailText style depth '\x7d' (style.renderFields (depth + 1) more) ++ rest)
      (.complete frames (.table (fields ++ (key, last) :: more)), rest) := by
  have new : key ∉ Fields.keys fields := fun old =>
    (List.nodup_append.1 distinct).2.2 _ old _ List.mem_cons_self rfl
  induction more generalizing fields key last with
  | nil =>
      rw [Style.renderFields]
      refine leads_tail_nil rfl (fun _ _ => rfl) fun pos => ?_
      simp [State.step, State.complete, afterValue, put_of_not_mem new]
  | cons f more ih =>
      obtain ⟨next, t⟩ := f
      have shifted : (Fields.keys (fields ++ [(key, last)]) ++ next :: Fields.keys more).Nodup := by
        simpa [Fields.keys] using distinct
      have again : next ∉ Fields.keys (fields ++ [(key, last)]) := fun old =>
        (List.nodup_append.1 shifted).2.2 _ old _ List.mem_cons_self rfl
      rw [Style.renderFields]
      calc Leads (.complete (.table fields key :: frames) last, _)
            (⟨frames, .key (Fields.put key last fields)⟩, _) := leads_tail_cons fun _ => rfl
        Leads _ (.complete (.table (fields ++ [(key, last)]) next :: frames) t, _) := by
          rw [put_of_not_mem new]
          exact leads_entry spaced rfl (each _ List.mem_cons_self) (stops_tailText _ (.inr rfl))
        Leads _ (.complete frames (.table (fields ++ (key, last) :: (next, t) :: more)), rest) := by
          simpa using ih shifted (fun f hf => each f (List.mem_cons_of_mem _ hf)) again

theorem enclose_cons (opening closing : Char) (e : List Char) (entries : List (List Char)) :
    style.enclose depth opening closing (e :: entries) ++ rest
      = opening :: (style.lineStart (depth + 1)
        ++ (e ++ (tailText style depth closing entries ++ rest))) := by
  simp [Style.enclose, tailText]

theorem taken_list (room : levels < nestingLimit)
    (each : ∀ t ∈ items, Taken style (depth + 1) (levels + 1) t) :
    Taken style depth levels (.list items) := by
  rintro σ rest rfl takes stops
  have opened : ∀ pos, σ.step ⟨.openList, pos⟩ = .ok ⟨.list [] :: σ.frames, .itemOrClose⟩ := by
    intro pos
    simp [step_value takes, beginValue, openContainer, room]
  rw [Style.render]
  cases items with
  | nil =>
      rw [Style.renderItems]
      exact (leads_sign rfl (fun _ _ => rfl) opened).trans
        (leads_sign rfl (fun _ _ => rfl) fun _ => rfl)
  | cons t items =>
      rw [Style.renderItems, enclose_cons]
      calc Leads (σ, _) (⟨.list [] :: σ.frames, .itemOrClose⟩, _) :=
            leads_sign rfl (fun _ _ => rfl) opened
        Leads _ (⟨.list [] :: σ.frames, .itemOrClose⟩, _) := leads_spaces isSpace_of_mem_lineStart
        Leads _ (.complete (.list [] :: σ.frames) t, _) :=
          each t List.mem_cons_self _ _ rfl rfl (stops_tailText _ (.inl rfl))
        Leads _ (.complete σ.frames (.list (t :: items)), rest) :=
          leads_items fun u hu => each u (List.mem_cons_of_mem _ hu)

theorem taken_table (spaced : style.Spaced) (room : levels < nestingLimit)
    (distinct : (Fields.keys fields).Nodup)
    (each : ∀ f ∈ fields, Taken style (depth + 1) (levels + 1) f.2) :
    Taken style depth levels (.table fields) := by
  rintro σ rest rfl takes stops
  have opened : ∀ pos, σ.step ⟨.openTable, pos⟩ = .ok ⟨σ.frames, .keyOrClose []⟩ := by
    intro pos
    simp [step_value takes, beginValue, openContainer, room]
  rw [Style.render]
  cases fields with
  | nil =>
      rw [Style.renderFields]
      exact (leads_sign rfl (fun _ _ => rfl) opened).trans
        (leads_sign rfl (fun _ _ => rfl) fun _ => rfl)
  | cons f fields =>
      obtain ⟨key, t⟩ := f
      rw [Style.renderFields, enclose_cons]
      calc Leads (σ, _) (⟨σ.frames, .keyOrClose []⟩, _) := leads_sign rfl (fun _ _ => rfl) opened
        Leads _ (⟨σ.frames, .keyOrClose []⟩, _) := leads_spaces isSpace_of_mem_lineStart
        Leads _ (.complete (.table [] key :: σ.frames) t, _) :=
          leads_entry spaced rfl (each _ List.mem_cons_self) (stops_tailText _ (.inr rfl))
        Leads _ (.complete σ.frames (.table ((key, t) :: fields)), rest) :=
          leads_fields spaced distinct fun f hf => each f (List.mem_cons_of_mem _ hf)

end Containers

section Trees
variable {style : Style} {room : Nat} {t : Tree} {items : List Tree} {fields : Fields}

theorem isLong_of_mem_fields (short : Tree.anyEntryLong fields = false) :
    ∀ f ∈ fields, f.2.isLong = false := by
  induction fields with
  | nil => simp
  | cons f fields ih =>
      rw [Tree.anyEntryLong, Bool.or_eq_false_iff] at short
      exact List.forall_mem_cons.2 ⟨short.1, ih short.2⟩

theorem spells_word {w : List Char} {v : Scalar} (h : (w, v) ∈ words) : Spells w v := by
  intro rest _
  simp only [words, List.mem_cons, Prod.mk.injEq, List.not_mem_nil, or_false] at h
  rcases h with ⟨rfl, rfl⟩ | ⟨rfl, rfl⟩ | ⟨rfl, rfl⟩ | ⟨rfl, rfl⟩ | ⟨rfl, rfl⟩ | ⟨rfl, rfl⟩ <;>
    simp [numberOrWord, word?, words, Text.after?]

theorem taken_of_spells {depth levels : Nat} {v : Scalar}
    (h : Spells (scalarText style.asciiOnly v) v) :
    Taken style depth levels (.scalar v) := by
  rintro σ rest - takes stops
  rw [Style.render]
  exact h.leads takes stops

theorem taken_of_fits (spaced : style.Spaced) (fits : Fits room t) (short : t.isLong = false)
    (depth levels : Nat) (bounded : levels + room ≤ nestingLimit) :
    Taken style depth levels t := by
  induction fits generalizing depth levels with
  | null => exact taken_of_spells (spells_word (by simp [words, scalarText]))
  | bool b => cases b <;> exact taken_of_spells (spells_word (by simp [words, scalarText]))
  | int n => exact taken_of_spells fun rest stops => numberOrWord_intText short stops
  | float x => exact taken_of_spells fun rest stops => numberOrWord_floatText x stops
  | text s =>
      rintro σ rest - takes stops
      rw [Style.render]
      exact leads_string takes s
  | list each ih =>
      rw [Tree.isLong] at short
      exact taken_list (by omega) fun u hu =>
        ih u hu (Tree.anyLong_eq_false_iff.1 short u hu) _ _ (by omega)
  | table distinct each ih =>
      rw [Tree.isLong] at short
      exact taken_table spaced (by omega) distinct
        fun f hf => ih f hf (isLong_of_mem_fields short f hf) _ _ (by omega)

theorem head?_of_spells {w : List Char} {v : Scalar} (h : Spells w v) :
    w.head? ≠ some '\uFEFF' := by
  have alone := h [] (by simp [Stops])
  rw [List.append_nil] at alone
  obtain ⟨d, u, rfl, starts⟩ := starts_of_numberOrWord alone
  rintro mark
  cases mark
  revert starts
  decide

theorem head?_render (fits : Fits room t) (short : t.isLong = false) (depth : Nat) :
    (style.render depth t).head? ≠ some '\uFEFF' := by
  cases fits with
  | null => simp [Style.render, scalarText]
  | bool b => cases b <;> simp [Style.render, scalarText]
  | int n =>
      rw [Style.render]
      exact head?_of_spells fun rest stops => numberOrWord_intText short stops
  | float x =>
      rw [Style.render]
      exact head?_of_spells fun rest stops => numberOrWord_floatText x stops
  | text s => simp [Style.render, scalarText, stringText]
  | @list _ items _ => cases items <;> simp [Style.render, Style.renderItems, Style.enclose]
  | @table _ fields _ _ => cases fields <;> simp [Style.render, Style.renderFields, Style.enclose]

/-- What is written is read back, with the line end that closes it. -/
theorem read_render (spaced : style.Spaced) (fits : Fits nestingLimit t)
    (short : t.isLong = false) : read (style.render 0 t ++ ['\n']) = .ok t := by
  have taken := taken_of_fits spaced fits short 0 0 (Nat.zero_add _).le .start ['\n'] rfl rfl
    (stops_cons (by simp))
  have ended : Leads (.start, style.render 0 t ++ ['\n']) (.complete [] t, []) :=
    taken.trans (leads_space rfl)
  obtain ⟨pos, run⟩ := ended 0
  unfold read
  split
  case h_1 mark =>
      have first : (style.render 0 t).head? ≠ some '\uFEFF' := head?_render fits short 0
      cases text : style.render 0 t with
      | nil => simp [text] at mark
      | cons c w => simp_all
  case h_2 =>
      rw [tokens, run]
      rfl

/-- A number with more behind it than blanks is no document. -/
theorem read_int_append_ne {n : Int} (short : (Scalar.int n).isLong = false) {c : Char}
    (visible : isSpace c = false) (rest : List Char) (t : Tree) :
    read (intText n ++ ' ' :: c :: rest) ≠ .ok t := by
  have spells : Spells (intText n) (.int n) := fun rest stops => numberOrWord_intText short stops
  have blank : Stops (' ' :: c :: rest) := by
    intro d hd
    cases hd
    decide
  have counted : Leads (.start, intText n ++ ' ' :: c :: rest) (.complete [] (.int n), c :: rest) :=
    (spells.leads rfl blank).trans (leads_space rfl)
  obtain ⟨pos, run⟩ := counted 0
  unfold read
  split
  case h_1 => exact nofun
  case h_2 =>
      intro ended
      rw [tokens, run, tokensFrom] at ended
      simp [visible, State.step, State.complete, afterValue] at ended
      cases ended

end Trees
end DependencyAudit.Json
