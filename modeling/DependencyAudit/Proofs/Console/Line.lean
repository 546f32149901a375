import DependencyAudit.Console.Line
import DependencyAudit.Proofs.Text.Blank
import DependencyAudit.Proofs.Text.Lines
import DependencyAudit.Proofs.Text.Width
import Mathlib.Data.List.Chain

/-!
What the two ways to print leave of a text. The console shows every line that it has room
for as it stands, but for tabs and the characters that move the cursor back, of which it
shows none. Plain output keeps all of these, and leaves out colour and cursor sequences.
-/
namespace DependencyAudit.Console
open Text

/-- The console has room for a line, in columns and in characters. -/
def Fits (line : List Char) : Prop :=
  width line ≤ consoleWidth ∧ line.length ≤ consoleWidth

instance (line : List Char) : Decidable (Fits line) :=
  inferInstanceAs (Decidable (_ ∧ _))

section Words

theorem flatten_wordsFrom (word : List Char) (spaced : Bool) (s : List Char) :
    (words.wordsFrom word spaced s).flatten = word.reverse ++ s := by
  induction s generalizing word spaced with
  | nil => simp [words.wordsFrom]
  | cons c s ih =>
      by_cases blank : isBlank c
      · simp [words.wordsFrom, blank, ih]
      · cases spaced with
        | true | false => simp [words.wordsFrom, blank, ih]

/-- A word that another one follows ends in white space. -/
theorem isChain_wordsFrom {word : List Char} {spaced : Bool} (s : List Char)
    (h : spaced = true → ∃ c ∈ word.head?, isBlank c = true) :
    (words.wordsFrom word spaced s).IsChain fun w _ => ∃ c ∈ w.getLast?, isBlank c = true := by
  induction s generalizing word spaced with
  | nil => exact .singleton _
  | cons c s ih =>
      by_cases blank : isBlank c
      · rw [words.wordsFrom, if_pos blank]
        exact ih fun _ => ⟨c, rfl, blank⟩
      · cases spaced with
        | false =>
            rw [words.wordsFrom, if_neg blank, if_neg nofun]
            exact ih nofun
        | true =>
            rw [words.wordsFrom, if_neg blank, if_pos rfl, List.isChain_cons]
            refine ⟨fun _ _ => ?_, ih nofun⟩
            rw [List.getLast?_reverse]
            exact h rfl

theorem flatten_words (s : List Char) : words s = [] ∨ (words s).flatten = s := by
  have whole : s.takeWhile isBlank ++ trimLeft s = s := List.takeWhile_append_dropWhile
  cases rest : trimLeft s with
  | nil =>
      left
      simp only [words, rest]
  | cons c r =>
      right
      rw [rest] at whole
      simpa [words, rest, flatten_wordsFrom] using whole

theorem isChain_words (s : List Char) :
    (words s).IsChain fun w _ => ∃ c ∈ w.getLast?, isBlank c = true := by
  cases rest : trimLeft s with
  | nil =>
      simp only [words, rest]
      exact .nil
  | cons c r =>
      simp only [words, rest]
      apply isChain_wordsFrom
      intro never
      cases never

theorem ne_joiner_of_isBlank {c : Char} (h : isBlank c = true) : c ≠ joiner := by
  rintro rfl
  revert h
  decide

theorem breaksFrom_eq_nil {o : Overflow} {place used start : Nat} {words : List (List Char)}
    (apart : words.IsChain fun w _ => ∃ c ∈ w.getLast?, isBlank c = true)
    (fits : used + width words.flatten ≤ place) : breaksFrom o place used start words = [] := by
  -- What is used up and what is still to come fit together, so no word has to move on.
  induction words generalizing used start with
  | nil => rfl
  | cons word rest ih =>
      have trimmed : width (trimRight word) ≤ width word :=
        width_le_of_prefix (List.rdropWhile_prefix isBlank word)
      have both : width word + width rest.flatten ≤ width (word :: rest).flatten := by
        cases rest with
        | nil =>
            rw [List.flatten_singleton]
            exact Nat.le_refl _
        | cons next rest =>
            obtain ⟨c, last, blank⟩ := (List.isChain_cons_cons.1 apart).1
            rw [List.flatten_cons]
            refine width_add_width_le fun d hd => ?_
            cases last.symm.trans hd
            exact ne_joiner_of_isBlank blank
      rw [breaksFrom]
      simp only
      rw [if_pos (by omega)]
      exact ih (List.isChain_cons.1 apart).2 (by omega)

end Words

section Shown
variable {line : List Char} {s : String}

/-- A line that its place has columns for stays whole, if no white space is dropped. -/
theorem wrap_of_dropExcess {o : Overflow} {place : Nat} (flat : '\t' ∉ line)
    (columns : width line ≤ place) (kept : dropExcess place line = line) :
    o.wrap place line = [line] := by
  have same : expandTabs line = line := by
    rw [expandTabs, splitAtEach_of_not_mem flat]
    rfl
  have unbroken : breaksFrom o place 0 0 (words line) = [] := by
    obtain nothing | all := flatten_words line
    · rw [nothing]
      rfl
    · exact breaksFrom_eq_nil (isChain_words line) (by rw [all]; omega)
  simp only [Overflow.wrap, same, unbroken, cutAt, List.map_singleton, kept, Overflow.cut,
    if_pos columns]

theorem wrap_eq_singleton {o : Overflow} {place : Nat} (flat : '\t' ∉ line)
    (columns : width line ≤ place) (characters : line.length ≤ place) :
    o.wrap place line = [line] :=
  wrap_of_dropExcess flat columns (List.take_of_length_le (by omega))

theorem toList_intercalate_lines (pieces : List (List Char)) :
    ("\n".intercalate (pieces.map String.ofList)).toList = ['\n'].intercalate pieces := by
  have back : String.toList ∘ String.ofList = id := funext fun s => String.toList_ofList
  rw [String.toList_intercalate, List.map_map, back, List.map_id]
  rfl

/-- With no tab, with nothing that moves the cursor back, and with room for every line, the
console shows a text as it is and ends it. -/
theorem shown_eq (flat : '\t' ∉ s.toList) (stays : ∀ c ∈ s.toList, movesBack c = false)
    (fits : ∀ line ∈ splitAtEach '\n' s.toList, Fits line) : shown s = s ++ "\n" := by
  have all : visible s.toList = s.toList :=
    List.filter_eq_self.2 fun c hc => by rw [stays c hc]; rfl
  have lines : Overflow.fold.lines consoleWidth s.toList = splitAtEach '\n' s.toList := by
    calc (splitAtEach '\n' s.toList).flatMap (Overflow.fold.wrap consoleWidth)
        = (splitAtEach '\n' s.toList).flatMap fun line => [line] := by
          apply List.flatMap_congr
          intro line member
          have ⟨columns, characters⟩ := fits line member
          exact wrap_eq_singleton (fun tab => flat (mem_of_mem_splitAtEach member tab).1) columns
            characters
      _ = splitAtEach '\n' s.toList := List.flatMap_singleton' _
  rw [shown, all, lines]
  congr 1
  apply String.toList_inj.1
  rw [toList_intercalate_lines, splitAtEach_eq_splitOn, List.intercalate_splitOn]

variable {c : Char}

theorem mem_expandTabsFrom {column : Nat} {parts : List (List Char)}
    (h : c ∈ expandTabsFrom column parts) : c = ' ' ∨ ∃ part ∈ parts, c ∈ part := by
  induction parts generalizing column with
  | nil => cases h
  | cons part rest ih =>
      cases rest with
      | nil => exact .inr ⟨part, List.mem_cons_self, h⟩
      | cons next rest =>
          simp only [expandTabsFrom, List.mem_append, List.mem_singleton, List.mem_replicate] at h
          obtain ((inside | space) | ⟨_, space⟩) | behind := h
          · exact .inr ⟨part, List.mem_cons_self, inside⟩
          · exact .inl space
          · exact .inl space
          · obtain space | ⟨part, member, inside⟩ := ih behind
            · exact .inl space
            · exact .inr ⟨part, List.mem_cons_of_mem _ member, inside⟩

theorem mem_expandTabs (h : c ∈ expandTabs line) : c = ' ' ∨ c ∈ line ∧ c ≠ '\t' := by
  obtain space | ⟨part, member, inside⟩ := mem_expandTabsFrom h
  · exact .inl space
  · exact .inr (mem_of_mem_splitAtEach member inside)

theorem mem_of_mem_cutAt {start : Nat} {places : List Nat} {piece : List Char}
    (member : piece ∈ cutAt start line places) (h : c ∈ piece) : c ∈ line := by
  induction places generalizing start line with
  | nil => exact List.mem_singleton.1 member ▸ h
  | cons place rest ih =>
      cases member with
      | head => exact List.mem_of_mem_take h
      | tail _ member => exact List.mem_of_mem_drop (ih member)

theorem mem_fitting {left : Nat} {clusters : List Cluster} (h : c ∈ fitting left clusters) :
    c = ' ' ∨ ∃ k ∈ clusters, c ∈ k.chars := by
  induction clusters generalizing left with
  | nil => cases h
  | cons k rest ih =>
      rw [fitting] at h
      split at h
      case isTrue => cases h
      case isFalse =>
        split at h
        case isTrue =>
          obtain inside | behind := List.mem_append.1 h
          · exact .inr ⟨k, List.mem_cons_self, inside⟩
          · obtain space | ⟨k, member, inside⟩ := ih behind
            · exact .inl space
            · exact .inr ⟨k, List.mem_cons_of_mem _ member, inside⟩
        case isFalse => exact .inl (List.mem_singleton.1 h)

theorem mem_cut {place : Nat} (h : c ∈ Overflow.fold.cut place line) : c = ' ' ∨ c ∈ line := by
  rw [Overflow.cut] at h
  split at h
  case isTrue => exact .inr h
  case isFalse =>
    obtain space | inside := mem_fitting h
    · exact .inl space
    · rw [← List.mem_flatMap, chars_clusters] at inside
      exact .inr inside

theorem mem_wrap {place : Nat} {piece : List Char} (member : piece ∈ Overflow.fold.wrap place line)
    (h : c ∈ piece) : c = ' ' ∨ c ∈ line ∧ c ≠ '\t' := by
  obtain ⟨cut, hcut, rfl⟩ := List.mem_map.1 member
  obtain space | inside := mem_cut h
  · exact .inl space
  · exact mem_expandTabs (mem_of_mem_cutAt hcut (List.mem_of_mem_take inside))

theorem mem_intercalate {sep : Char} {pieces : List (List Char)}
    (h : c ∈ [sep].intercalate pieces) : c = sep ∨ ∃ piece ∈ pieces, c ∈ piece := by
  induction pieces with
  | nil => cases h
  | cons piece rest ih =>
      cases rest with
      | nil =>
          rw [List.intercalate_singleton] at h
          exact .inr ⟨piece, List.mem_cons_self, h⟩
      | cons next rest =>
          rw [List.intercalate_cons_cons, List.mem_append, List.mem_append] at h
          obtain (inside | between) | behind := h
          · exact .inr ⟨piece, List.mem_cons_self, inside⟩
          · exact .inl (List.mem_singleton.1 between)
          · obtain between | ⟨piece, member, inside⟩ := ih behind
            · exact .inl between
            · exact .inr ⟨piece, List.mem_cons_of_mem _ member, inside⟩

/-- Nothing is shown but spaces, line feeds, and what may stand on the console. -/
theorem mem_shown (h : c ∈ (shown s).toList) :
    c = ' ' ∨ c = '\n' ∨ c ∈ s.toList ∧ c ≠ '\t' ∧ movesBack c = false := by
  rw [shown, String.toList_append, toList_intercalate_lines, List.mem_append] at h
  obtain shown | feed := h
  · obtain feed | ⟨piece, member, inside⟩ := mem_intercalate shown
    · exact .inr (.inl feed)
    · obtain ⟨line, hline, member⟩ := List.mem_flatMap.1 member
      obtain space | ⟨inside, flat⟩ := mem_wrap member inside
      · exact .inl space
      · have inside := (mem_of_mem_splitAtEach hline inside).1
        obtain ⟨inside, stays⟩ := List.mem_filter.1 inside
        exact .inr (.inr ⟨inside, flat, by simpa using stays⟩)
  · exact .inr (.inl (List.mem_singleton.1 feed))

theorem count_intercalate {sep : Char} (other : c ≠ sep) (pieces : List (List Char)) :
    ([sep].intercalate pieces).count c = pieces.flatten.count c := by
  induction pieces with
  | nil => rfl
  | cons piece rest ih =>
      cases rest with
      | nil => rw [List.intercalate_singleton, List.flatten_singleton]
      | cons next rest =>
          rw [List.intercalate_cons_cons, List.count_append, List.count_append, ih,
            List.flatten_cons (l := piece), List.count_append, List.count_singleton,
            if_neg (by simpa using other.symm), Nat.add_zero]

theorem count_splitAtEach {sep : Char} (other : c ≠ sep) (s : List Char) :
    (splitAtEach sep s).flatten.count c = s.count c := by
  rw [← count_intercalate other, splitAtEach_eq_splitOn, List.intercalate_splitOn]

theorem count_expandTabsFrom (space : c ≠ ' ') (column : Nat) (parts : List (List Char)) :
    (expandTabsFrom column parts).count c = parts.flatten.count c := by
  induction parts generalizing column with
  | nil => rfl
  | cons part rest ih =>
      cases rest with
      | nil => rw [expandTabsFrom, List.flatten_singleton]
      | cons next rest =>
          simp only [expandTabsFrom, List.count_append, ih, List.count_replicate,
            List.flatten_cons, List.count_singleton]
          simp [space.symm]

theorem flatten_cutAt (start : Nat) (s : List Char) (places : List Nat) :
    (cutAt start s places).flatten = s := by
  induction places generalizing start s with
  | nil => exact List.flatten_singleton
  | cons place rest ih => rw [cutAt, List.flatten_cons, ih, List.take_append_drop]

theorem count_fitting_le (space : c ≠ ' ') (left : Nat) (clusters : List Cluster) :
    (fitting left clusters).count c ≤ (clusters.flatMap (·.chars)).count c := by
  induction clusters generalizing left with
  | nil => exact Nat.le_refl 0
  | cons k rest ih =>
      rw [fitting, List.flatMap_cons, List.count_append]
      split
      case isTrue => exact Nat.zero_le _
      case isFalse =>
        split
        case isTrue =>
          rw [List.count_append]
          exact Nat.add_le_add_left (ih _) _
        case isFalse =>
          rw [List.count_singleton, if_neg (by simpa using space.symm)]
          exact Nat.zero_le _

theorem count_cut_le (space : c ≠ ' ') (place : Nat) (line : List Char) :
    (Overflow.fold.cut place line).count c ≤ line.count c := by
  rw [Overflow.cut]
  split
  case isTrue => exact Nat.le_refl _
  case isFalse =>
    have fits := count_fitting_le space place (clusters line)
    rwa [chars_clusters] at fits

theorem count_flatten_map_le {f : List Char → List Char} {pieces : List (List Char)}
    (each : ∀ piece, (f piece).count c ≤ piece.count c) :
    (pieces.map f).flatten.count c ≤ pieces.flatten.count c := by
  induction pieces with
  | nil => exact Nat.le_refl 0
  | cons piece rest ih =>
      rw [List.map_cons, List.flatten_cons, List.flatten_cons, List.count_append,
        List.count_append]
      exact Nat.add_le_add (each piece) ih

theorem count_wrap_le (space : c ≠ ' ') (tab : c ≠ '\t') (place : Nat) (line : List Char) :
    (Overflow.fold.wrap place line).flatten.count c ≤ line.count c := by
  have each (piece : List Char) :
      (Overflow.fold.cut place (dropExcess place piece)).count c ≤ piece.count c :=
    (count_cut_le space place _).trans ((List.take_sublist _ _).count_le c)
  calc (Overflow.fold.wrap place line).flatten.count c
      ≤ (cutAt 0 (expandTabs line)
          (breaksFrom .fold place 0 0 (words (expandTabs line)))).flatten.count c :=
        count_flatten_map_le each
    _ = (expandTabs line).count c := by rw [flatten_cutAt]
    _ = line.count c := by rw [expandTabs, count_expandTabsFrom space, count_splitAtEach tab]

/-- The console shows no character more often than it stands in the text. -/
theorem count_shown_le (space : c ≠ ' ') (feed : c ≠ '\n') (tab : c ≠ '\t') :
    (shown s).toList.count c ≤ s.toList.count c := by
  have wrapped : (Overflow.fold.lines consoleWidth (visible s.toList)).flatten.count c ≤
      (splitAtEach '\n' (visible s.toList)).flatten.count c := by
    rw [Overflow.lines, List.flatMap_def, List.flatten_flatten, List.map_map]
    exact count_flatten_map_le fun line => count_wrap_le space tab consoleWidth line
  have seen : (visible s.toList).count c ≤ s.toList.count c := List.filter_sublist.count_le c
  have ended : ("\n".toList).count c = 0 := List.count_eq_zero.2 (by simpa using feed)
  rw [count_splitAtEach feed] at wrapped
  rw [shown, String.toList_append, toList_intercalate_lines, List.count_append,
    count_intercalate feed, ended]
  omega

/-- A text with room for its lines survives the console exactly if nothing in it is changed
on purpose. -/
theorem alike_shown_iff (fits : ∀ line ∈ splitAtEach '\n' s.toList, Fits line) :
    Alike (shown s) s ↔ ∀ c ∈ s.toList, c ≠ '\t' ∧ movesBack c = false := by
  constructor
  · intro alike c member
    by_contra changed
    have space : c ≠ ' ' := fun same => changed (same ▸ ⟨by decide, rfl⟩)
    have feed : c ≠ '\n' := fun same => changed (same ▸ ⟨by decide, rfl⟩)
    have shows : c ∈ (shown s).toList := by
      rw [← List.count_pos_iff, alike.count_eq space feed]
      exact List.count_pos_iff.2 member
    obtain same | same | ⟨_, kept⟩ := mem_shown shows
    · exact space same
    · exact feed same
    · exact changed kept
  · intro kept
    rw [shown_eq (fun tab => (kept _ tab).1 rfl) (fun c hc => (kept c hc).2) fits]
    exact alike_ended s

end Shown

section Echoed
variable {s : List Char}

/-- A colour or cursor sequence stands somewhere in a text. -/
def HasSequence (s : List Char) : Prop :=
  ∃ rest, '\x1b' :: rest <:+ s ∧ (sequenceLength? rest).isSome = true

theorem HasSequence.cons {c : Char} (h : HasSequence s) : HasSequence (c :: s) := by
  obtain ⟨rest, behind, read⟩ := h
  exact ⟨rest, behind.trans (List.suffix_cons c s), read⟩

theorem dropSequencesFrom_eq_self (h : ¬ HasSequence s) : dropSequencesFrom 0 s = s := by
  induction s with
  | nil => rfl
  | cons c s ih =>
      have missing : (if c = '\x1b' then sequenceLength? s else none) = none := by
        split
        case isTrue escape =>
          subst escape
          rw [← Option.not_isSome_iff_eq_none]
          exact fun read => h ⟨s, List.suffix_rfl, read⟩
        case isFalse => rfl
      rw [dropSequencesFrom, missing, ih fun behind => h behind.cons]

theorem dropSequencesFrom_sublist (skip : Nat) (s : List Char) :
    (dropSequencesFrom skip s).Sublist s := by
  induction s generalizing skip with
  | nil => exact .slnil
  | cons c s ih =>
      cases skip with
      | succ skip => exact (ih skip).cons c
      | zero =>
          rw [dropSequencesFrom]
          split
          case h_1 n _ => exact (ih n).cons c
          case h_2 => exact (ih 0).cons_cons c

/-- The escape character of a sequence goes with it. -/
theorem count_dropSequencesFrom_lt (h : HasSequence s) :
    (dropSequencesFrom 0 s).count '\x1b' < s.count '\x1b' := by
  induction s with
  | nil =>
      obtain ⟨rest, behind, _⟩ := h
      cases List.suffix_nil.1 behind
  | cons c s ih =>
      rw [dropSequencesFrom]
      split
      case h_1 n read =>
        by_cases escape : c = '\x1b'
        · -- Whatever is read behind this sequence, it can only lose more.
          subst escape
          have left := (dropSequencesFrom_sublist n s).count_le '\x1b'
          rw [List.count_cons_self]
          omega
        · rw [if_neg escape] at read
          cases read
      case h_2 unread =>
        have behind : HasSequence s := by
          obtain ⟨rest, behind, read⟩ := h
          obtain here | behind := List.suffix_cons_iff.1 behind
          · cases here
            rw [if_pos rfl] at unread
            rw [unread] at read
            cases read
          · exact ⟨rest, behind, read⟩
        have fewer := ih behind
        rw [List.count_cons, List.count_cons]
        omega

theorem alike_echoed_iff (s : String) : Alike (echoed s) s ↔ ¬ HasSequence s.toList := by
  constructor
  · intro alike found
    have fewer := count_dropSequencesFrom_lt found
    have same := alike.count_eq (c := '\x1b') (by decide) (by decide)
    rw [echoed, String.toList_ofList] at same
    omega
  · intro sequenceless
    rw [echoed, dropSequencesFrom_eq_self sequenceless, String.ofList_toList]
    exact .refl s

end Echoed
end DependencyAudit.Console
