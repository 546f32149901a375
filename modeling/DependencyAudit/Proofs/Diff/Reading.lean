import DependencyAudit.Text.Scan
import DependencyAudit.Text.Search
import DependencyAudit.Proofs.Diff.Application

/-!
Reading unified diffs. A text is read line by line: two lines that name the
files, then hunks, each with a head and a body that has as many lines of either
side as the head says. What is written as a unified diff is read back as it was.
-/
namespace DependencyAudit.Diff

section Lines

/-- The lines of a text with the line feeds at their ends. A text whose last line
has none is not read. -/
def fedLines? : List Char → Option (List (List Char))
  | [] => some []
  | c :: s =>
    if c = '\n' then (fedLines? s).map (['\n'] :: ·)
    else
      match fedLines? s with
      | some (line :: lines) => some ((c :: line) :: lines)
      | _ => none

/-- A line with one line feed, at its end. -/
def Fed (line : List Char) : Prop := ∃ l, line = l ++ ['\n'] ∧ '\n' ∉ l

theorem fedLines?_append {line : List Char} (fed : Fed line) (s : List Char) :
    fedLines? (line ++ s) = (fedLines? s).map (line :: ·) := by
  obtain ⟨l, rfl, whole⟩ := fed
  induction l with
  | nil => simp [fedLines?]
  | cons c l ih =>
      obtain ⟨first, rest⟩ := not_or.1 (mt List.mem_cons.2 whole)
      have ne : c ≠ '\n' := fun eq => first eq.symm
      simp only [List.cons_append, fedLines?, if_neg ne, ih rest]
      cases fedLines? s <;> rfl

theorem fedLines?_flatten {lines : List (List Char)} (fed : ∀ line ∈ lines, Fed line) :
    fedLines? lines.flatten = some lines := by
  induction lines with
  | nil => rfl
  | cons line lines ih =>
      rw [List.flatten_cons, fedLines?_append (fed line List.mem_cons_self),
        ih fun l hl => fed l (List.mem_cons_of_mem line hl)]
      rfl

end Lines

section Ranges

def number? (s : List Char) : Option (Nat × List Char) :=
  (Text.run? Char.isDigit s).map fun found => (Nat.ofDigitChars 10 found.1 0, found.2)

/-- A first line and a number of lines; a first line alone stands for one line. -/
def range? (s : List Char) : Option ((Nat × Nat) × List Char) :=
  match number? s with
  | some (start, ',' :: s) => (number? s).map fun found => ((start, found.1), found.2)
  | some (start, s) => some ((start, 1), s)
  | none => none

/-- The lines in front of a range. An empty range is named by the line before it. -/
def skipped? (range : Nat × Nat) : Option Nat :=
  if range.2 = 0 then some range.1
  else if range.1 = 0 then none
  else some (range.1 - 1)

theorem number?_toDigits (n : Nat) {c : Char} (ends : c.isDigit = false) (s : List Char) :
    number? (Nat.toDigits 10 n ++ c :: s) = some (n, c :: s) := by
  have digits : ∀ d ∈ Nat.toDigits 10 n, d.isDigit := fun d hd =>
    Nat.isDigit_of_mem_toDigits (by decide) (by decide) hd
  have front : (Nat.toDigits 10 n ++ c :: s).takeWhile Char.isDigit = Nat.toDigits 10 n := by
    rw [List.takeWhile_append_of_pos digits, List.takeWhile_cons_of_neg (by simp [ends]),
      List.append_nil]
  have rest : (Nat.toDigits 10 n ++ c :: s).dropWhile Char.isDigit = c :: s := by
    rw [List.dropWhile_append_of_pos digits, List.dropWhile_cons_of_neg (by simp [ends])]
  have nonempty : (Nat.toDigits 10 n).isEmpty = false := by simp
  simp only [number?, Text.run?, front, rest, nonempty, Bool.false_eq_true, ite_false,
    Option.map_some, Nat.ofDigitChars_ten_toDigits]

theorem toList_rangeText (skipped count : Nat) :
    (Hunk.rangeText skipped count).toList =
      if count = 1 then Nat.toDigits 10 (skipped + 1)
      else Nat.toDigits 10 (if count = 0 then skipped else skipped + 1) ++
        ',' :: Nat.toDigits 10 count := by
  rw [Hunk.rangeText]
  split
  · exact Nat.toList_repr
  · split
    case isTrue empty => simp [empty, ToString.toString, Nat.toList_repr]
    case isFalse => simp [ToString.toString, Nat.toList_repr]

theorem range?_rangeText (skipped count : Nat) (s : List Char) :
    ∃ start, range? ((Hunk.rangeText skipped count).toList ++ ' ' :: s) =
        some ((start, count), ' ' :: s) ∧ skipped? (start, count) = some skipped := by
  have blank : ' '.isDigit = false := rfl
  have comma : ','.isDigit = false := rfl
  rw [toList_rangeText]
  by_cases one : count = 1
  · refine ⟨skipped + 1, ?_, by simp [skipped?, one]⟩
    rw [if_pos one, range?, number?_toDigits _ blank, one]
    rfl
  · refine ⟨if count = 0 then skipped else skipped + 1, ?_, ?_⟩
    · rw [if_neg one, List.append_assoc, List.cons_append, range?, number?_toDigits _ comma]
      simp only [number?_toDigits _ blank, Option.map_some]
    · by_cases none : count = 0 <;> simp [skipped?, none]

end Ranges

section Hunks

def head? (line : List Char) : Option ((Nat × Nat) × (Nat × Nat)) := do
  let s ← Text.after? "@@ -".toList line
  let (old, s) ← range? s
  let s ← Text.after? " +".toList s
  let (new, s) ← range? s
  if s = " @@\n".toList then some (old, new) else none

def Step.read? : List Char → Option (Step String)
  | ' ' :: line => some (.keep (String.ofList line))
  | '-' :: line => some (.remove (String.ofList line))
  | '+' :: line => some (.add (String.ofList line))
  | _ => none

/-- A hunk with this head and body, if the head counts the body's lines. -/
def Hunk.headed? (line : List Char) (steps : Script String) : Option (Hunk String) := do
  let (old, new) ← head? line
  let before ← skipped? old
  let after ← skipped? new
  if steps.old.length = old.2 ∧ steps.new.length = new.2 then some ⟨before, after, steps⟩ else none

/-- The body lines at the front, and the hunks behind them. -/
def bodies? : List (List Char) → Option (Script String × List (Hunk String))
  | [] => some ([], [])
  | line :: lines => do
    let (steps, hunks) ← bodies? lines
    match Step.read? line with
    | some step => some (step :: steps, hunks)
    | none => (Hunk.headed? line steps).map fun h => ([], h :: hunks)

/-- Hunks that stand one behind the other, with nothing in front of them. -/
def hunksOf? (lines : List (List Char)) : Option (List (Hunk String)) :=
  match bodies? lines with
  | some ([], hunks) => some hunks
  | _ => none

def Hunk.readAll? (text : String) : Option (List (Hunk String)) :=
  (fedLines? text.toList).bind hunksOf?

/-- The text of a diff. It names the files only if it has hunks. -/
def diffText (oldName newName : String) (hunks : List (Hunk String)) : String :=
  (if hunks = [] then "" else s!"--- {oldName}\n+++ {newName}\n") ++
    String.join (hunks.map Hunk.text)

/-- A whole diff. An empty text says that there is no difference. -/
def Hunk.readDiff? (text : String) : Option (List (Hunk String)) :=
  match fedLines? text.toList with
  | some [] => some []
  | some (old :: new :: lines) =>
    if "--- ".toList <+: old ∧ "+++ ".toList <+: new then hunksOf? lines else none
  | _ => none

theorem Step.read?_text (step : Step String) : Step.read? step.text.toList = some step := by
  cases step <;> simp [Step.text, Step.read?, String.ofList_toList]

theorem toList_head (h : Hunk String) :
    h.head.toList = "@@ -".toList ++ ((Hunk.rangeText h.before h.steps.old.length).toList ++
      ' ' :: ("+".toList ++ ((Hunk.rangeText h.after h.steps.new.length).toList ++
        ' ' :: "@@\n".toList))) := by
  simp [Hunk.head, ToString.toString]

theorem Hunk.headed?_head (h : Hunk String) : headed? h.head.toList h.steps = some h := by
  obtain ⟨new, readNew, skippedNew⟩ :=
    range?_rangeText h.after h.steps.new.length "@@\n".toList
  obtain ⟨old, readOld, skippedOld⟩ := range?_rangeText h.before h.steps.old.length
    ("+".toList ++ ((rangeText h.after h.steps.new.length).toList ++ ' ' :: "@@\n".toList))
  have ranges : head? h.head.toList =
      some ((old, h.steps.old.length), (new, h.steps.new.length)) := by
    have start := Text.after?_eq_some_iff.2 (toList_head h)
    have middle (s : List Char) : Text.after? " +".toList (' ' :: ("+".toList ++ s)) = some s :=
      Text.after?_eq_some_iff.2 rfl
    simp only [head?, start, readOld, middle, readNew, Option.bind_eq_bind, Option.bind_some]
    rfl
  simp only [headed?, ranges, skippedOld, skippedNew, Option.bind_eq_bind, Option.bind_some,
    and_self, ite_true]

theorem Step.read?_head (h : Hunk String) : Step.read? h.head.toList = none := by
  rw [toList_head]
  rfl

theorem bodies?_steps {lines : List (List Char)} {hunks : List (Hunk String)}
    (rest : bodies? lines = some ([], hunks)) (steps : Script String) :
    bodies? (steps.map (·.text.toList) ++ lines) = some (steps, hunks) := by
  induction steps with
  | nil => exact rest
  | cons step steps ih =>
      simp only [List.map_cons, List.cons_append, bodies?, ih, Step.read?_text,
        Option.bind_eq_bind, Option.bind_some]

theorem bodies?_text (hunks : List (Hunk String)) :
    bodies? (hunks.flatMap fun h => h.head.toList :: h.steps.map (·.text.toList)) =
      some ([], hunks) := by
  induction hunks with
  | nil => rfl
  | cons h hunks ih =>
      rw [List.flatMap_cons, List.cons_append]
      simp only [bodies?, bodies?_steps ih, Step.read?_head, Hunk.headed?_head,
        Option.bind_eq_bind, Option.bind_some, Option.map_some]

end Hunks

section Texts

theorem fed_head (h : Hunk String) : Fed h.head.toList := by
  have digits (n : Nat) : '\n' ∉ Nat.toDigits 10 n := fun member =>
    absurd (Nat.isDigit_of_mem_toDigits (by decide) (by decide) member) (by decide)
  have range (skipped count : Nat) : '\n' ∉ (Hunk.rangeText skipped count).toList := by
    rw [toList_rangeText]
    split
    · exact digits _
    · simpa using ⟨digits _, digits _⟩
  refine ⟨"@@ -".toList ++ ((Hunk.rangeText h.before h.steps.old.length).toList ++
      ' ' :: ("+".toList ++ ((Hunk.rangeText h.after h.steps.new.length).toList ++
        " @@".toList))), ?_, ?_⟩
  · simp [toList_head]
  · simp [range]

theorem fed_text {step : Step String} (old : ∀ line ∈ step.old?, Fed line.toList)
    (new : ∀ line ∈ step.new?, Fed line.toList) : Fed step.text.toList := by
  cases step with
  | keep line =>
      obtain ⟨l, eq, whole⟩ := old line rfl
      exact ⟨' ' :: l, by simp [Step.text, eq], by simp [whole]⟩
  | remove line =>
      obtain ⟨l, eq, whole⟩ := old line rfl
      exact ⟨'-' :: l, by simp [Step.text, eq], by simp [whole]⟩
  | add line =>
      obtain ⟨l, eq, whole⟩ := new line rfl
      exact ⟨'+' :: l, by simp [Step.text, eq], by simp [whole]⟩

variable {hunks : List (Hunk String)}

theorem toList_join_text (hunks : List (Hunk String)) :
    (String.join (hunks.map Hunk.text)).toList =
      (hunks.flatMap fun h => h.head.toList :: h.steps.map (·.text.toList)).flatten := by
  induction hunks with
  | nil => rfl
  | cons h hunks ih =>
      rw [List.map_cons, String.join_cons, String.toList_append, ih, List.flatMap_cons,
        List.flatten_append]
      simp [Hunk.text, String.toList_join, List.flatMap_def, Function.comp_def]

theorem fedLines?_text (fed : ∀ h ∈ hunks, ∀ step ∈ h.steps, Fed step.text.toList) :
    fedLines? (String.join (hunks.map Hunk.text)).toList =
      some (hunks.flatMap fun h => h.head.toList :: h.steps.map (·.text.toList)) := by
  rw [toList_join_text]
  apply fedLines?_flatten
  intro line hline
  obtain ⟨h, hh, hl⟩ := List.mem_flatMap.1 hline
  rcases List.mem_cons.1 hl with rfl | body
  · exact fed_head h
  · obtain ⟨step, hs, rfl⟩ := List.mem_map.1 body
    exact fed h hh step hs

namespace Hunk

theorem readAll?_text (fed : ∀ h ∈ hunks, ∀ step ∈ h.steps, Fed step.text.toList) :
    readAll? (String.join (hunks.map text)) = some hunks := by
  rw [readAll?, fedLines?_text fed, Option.bind_some, hunksOf?, bodies?_text]

theorem readDiff?_text {oldName newName : String} (old : '\n' ∉ oldName.toList)
    (new : '\n' ∉ newName.toList) (read : readAll? (String.join (hunks.map text)) = some hunks) :
    readDiff? (s!"--- {oldName}\n+++ {newName}\n" ++ String.join (hunks.map text)) =
      some hunks := by
  have first : Fed ("--- ".toList ++ oldName.toList ++ ['\n']) :=
    ⟨"--- ".toList ++ oldName.toList, rfl, by simp [old]⟩
  have second : Fed ("+++ ".toList ++ newName.toList ++ ['\n']) :=
    ⟨"+++ ".toList ++ newName.toList, rfl, by simp [new]⟩
  have whole : (s!"--- {oldName}\n+++ {newName}\n" ++ String.join (hunks.map text)).toList =
      ("--- ".toList ++ oldName.toList ++ ['\n']) ++ (("+++ ".toList ++ newName.toList ++ ['\n'])
        ++ (String.join (hunks.map text)).toList) := by
    simp [ToString.toString]
  have named : "--- ".toList <+: "--- ".toList ++ oldName.toList ++ ['\n'] ∧
      "+++ ".toList <+: "+++ ".toList ++ newName.toList ++ ['\n'] := by
    constructor <;> exact ⟨_, (List.append_assoc _ _ _).symm⟩
  obtain ⟨lines, fed, hunked⟩ := Option.bind_eq_some_iff.1 read
  rw [readDiff?, whole, fedLines?_append first, fedLines?_append second, fed]
  simp only [Option.map_some, if_pos named, hunked]

end Hunk

theorem fed_ofLists {old new : List String} (fedOld : ∀ line ∈ old, Fed line.toList)
    (fedNew : ∀ line ∈ new, Fed line.toList) :
    ∀ h ∈ Hunk.ofScript (Script.ofLists old new), ∀ step ∈ h.steps, Fed step.text.toList := by
  intro h hh step hs
  have member := Hunk.mem_of_mem_ofScript hh hs
  apply fed_text
  · intro line is_old
    have inOld := List.mem_filterMap.2 ⟨step, member, is_old⟩
    change line ∈ Script.old (Script.ofLists old new) at inOld
    rw [Script.ofLists, Script.old_between] at inOld
    exact fedOld line inOld
  · intro line is_new
    have inNew := List.mem_filterMap.2 ⟨step, member, is_new⟩
    change line ∈ Script.new (Script.ofLists old new) at inNew
    rw [Script.ofLists, Script.new_between] at inNew
    exact fedNew line inNew

theorem unified_eq (oldName newName : String) (old new : List String) :
    unified oldName newName old new =
      diffText oldName newName (Hunk.ofScript (Script.ofLists old new)) := by
  unfold unified
  cases Hunk.ofScript (Script.ofLists old new) with
  | nil => rfl
  | cons h hunks => rw [diffText, if_neg (List.cons_ne_nil h hunks)]

/-- A diff whose hunks are read back is read back as a whole. -/
theorem readDiff?_diffText {oldName newName : String} (old : '\n' ∉ oldName.toList)
    (new : '\n' ∉ newName.toList)
    (read : Hunk.readAll? (String.join (hunks.map Hunk.text)) = some hunks) :
    Hunk.readDiff? (diffText oldName newName hunks) = some hunks := by
  rw [diffText]
  split
  case isTrue none =>
    rw [none]
    rfl
  case isFalse => exact Hunk.readDiff?_text old new read

theorem diffText_eq_empty_iff {oldName newName : String} :
    diffText oldName newName hunks = "" ↔ hunks = [] := by
  rw [diffText]
  split
  case isTrue none => simp [none]
  case isFalse some =>
    refine iff_of_false ?_ some
    intro eq
    simpa [ToString.toString] using congrArg String.toList eq

end Texts
end DependencyAudit.Diff
