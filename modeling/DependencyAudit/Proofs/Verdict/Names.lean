import DependencyAudit.Proofs.Number.Shortest
import DependencyAudit.Proofs.Text.LowercaseAgain
import DependencyAudit.Proofs.Verdict.Cascade

/-!
Names that settings add to the families. What a list or a table adds hangs on those of its
entries in which there is something to see; blank ones may come and go without any effect. A
blank text that stands alone, in no list, is the one blank name that gets into a family, and an
empty one there occurs in everything.
-/
namespace DependencyAudit

/-- There is nothing to see in a name. -/
def BlankName (name : String) : Prop := Text.Blank name.toList

instance : DecidablePred BlankName := fun name => Text.decidableForallMem name.toList _

theorem blankName_lowered_iff {name : String} : BlankName (lowered name) ↔ BlankName name := by
  rw [BlankName, lowered, String.toList_ofList]
  exact Text.blank_lower_iff

section Long

theorem not_isDigit_of_isBlank {c : Char} (h : Text.isBlank c = true) : isDigit c = false := by
  have other := Text.forall_of_isBlank (p := fun c => !isDigit c) (by decide +kernel) h
  simpa using other

theorem not_blank_intText (n : Int) : ¬ Text.Blank (intText n) := by
  have digits (n : Nat) : ¬ Text.Blank (natText n) := by
    intro blank
    obtain ⟨c, hc⟩ := List.exists_mem_of_ne_nil _ (Nat.toDigits_ne_nil (b := 10) (n := n))
    cases (not_isDigit_of_isBlank (blank c hc)).symm.trans (isDigit_of_mem_toDigits hc)
  rw [intText]
  split
  case isTrue => exact fun blank => absurd (blank '-' List.mem_cons_self) (by decide)
  case isFalse => exact digits _

/-- A value that cannot be shown is no blank name. -/
theorem not_blankName_of_isLong {t : Tree} (long : t.isLong = true) : ¬ BlankName t.plain := by
  cases t with
  | scalar s =>
      cases s with
      | int n =>
          rw [BlankName, Tree.plain, Scalar.plain, Scalar.literal, String.toList_ofList]
          · exact not_blank_intText n
          all_goals exact nofun
      | null | bool _ | float _ | text _ | halved _ | bytes _ | date _ | clock _ | moment _ =>
          cases long
  | list items =>
      intro blank
      have bracket : '[' ∈ ("[" ++ ", ".intercalate (Tree.literals items) ++ "]").toList := by simp
      cases blank '[' bracket
  | table fields =>
      intro blank
      have brace :
          '\x7b' ∈ ("\x7b" ++ ", ".intercalate (Tree.entries fields) ++ "\x7d").toList := by
        simp
      cases blank '\x7b' brace

end Long

section Empty
variable {fragments : List String} {name : String} {families : Families} {d : Declaration}

/-- An empty name occurs in everything. -/
theorem matchesAny_of_empty (h : "" ∈ fragments) : matchesAny fragments name = true :=
  matchesAny_iff.2 ⟨"", h, List.nil_infix⟩

theorem Verdict.place_le_of_empty (h : "" ∈ families.largeUtility) :
    (byName families d).category.place ≤ Category.likelyUnused.place :=
  Rule.place_of_le (r := .largeUtility) (matchesAny_of_empty h)

end Empty

namespace Families
variable {settings others configured : Fields} {families : Families} {key : String} {t : Tree}
  {items : List Tree} {names : List String}

/-- The entries of a setting that can be names; a text by itself is one. -/
def entries : Tree → List Tree
  | .scalar (.text name) => [.text name]
  | .list items => items
  | .table fields => (Fields.keys fields).map .text
  | _ => []

/-- The entries with something to see in them. -/
def visible (t : Tree) : List Tree := (entries t).filter fun entry => ¬ BlankName entry.plain

/-- A setting is a text in no list, and there is nothing to see in it. -/
def BlankAlone (t : Tree) : Prop := ∃ name, t = .text name ∧ BlankName name

section Fragments

theorem named_eq (names : List String) :
    fragments.named names = (names.filter fun name => ¬ BlankName name).map lowered := by
  have same (name : String) :
      (!(Text.trim name.toList).isEmpty) = decide (¬ BlankName name) := by
    rw [Bool.eq_iff_iff, decide_eq_true_iff, BlankName, ← Text.trim_eq_nil_iff,
      ← List.isEmpty_iff, Bool.not_eq_true', Bool.not_eq_true]
  simp only [fragments.named, same]

theorem named_plain (items : List Tree) :
    fragments.named (items.map Tree.plain) =
      (items.filter fun item => ¬ BlankName item.plain).map fun item => lowered item.plain := by
  rw [named_eq, List.filter_map, List.map_map]
  rfl

theorem anyLong_visible (items : List Tree) :
    Tree.anyLong (items.filter fun item => ¬ BlankName item.plain) = Tree.anyLong items := by
  rw [Bool.eq_iff_iff, ← not_iff_not, Bool.not_eq_true, Bool.not_eq_true,
    Tree.anyLong_eq_false_iff, Tree.anyLong_eq_false_iff]
  constructor
  · intro short item member
    by_contra long
    rw [Bool.not_eq_false] at long
    have kept : item ∈ items.filter fun item => ¬ BlankName item.plain :=
      List.mem_filter.2 ⟨member, decide_eq_true (not_blankName_of_isLong long)⟩
    cases (short item kept).symm.trans long
  · exact fun short item member => short item (List.mem_filter.1 member).1

/-- What a list gives, its visible items give. -/
theorem fragments_list (items : List Tree) :
    fragments (.list items) =
      fragments (.list (items.filter fun item => ¬ BlankName item.plain)) := by
  simp only [fragments, anyLong_visible, named_plain, List.filter_filter, Bool.and_self]

theorem fragments_texts (names : List String) :
    fragments (.list (names.map .text)) = .ok (fragments.named names) := by
  have short : Tree.anyLong (names.map .text) = false :=
    Tree.anyLong_eq_false_iff.2 fun t ht => by
      obtain ⟨name, _, rfl⟩ := List.mem_map.1 ht
      rfl
  have plain : (names.map Tree.text).map Tree.plain = names := by
    rw [List.map_map]
    exact List.map_id names
  rw [fragments, short, plain]
  rfl

/-- A setting gives what the list of its visible entries gives, unless it is a blank text. -/
theorem fragments_eq (h : ¬ BlankAlone t) : fragments t = fragments (.list (visible t)) := by
  cases t with
  | scalar s =>
      cases s with
      | text name =>
          have seen : ¬ BlankName name := fun blank => h ⟨name, rfl, blank⟩
          calc fragments (.text name) = .ok (fragments.named [name]) := by
                rw [named_eq, List.filter_cons_of_pos (by simpa using seen)]
                rfl
            _ = fragments (.list [.text name]) := (fragments_texts [name]).symm
            _ = fragments (.list (visible (.text name))) := fragments_list _
      | null | bool _ | int _ | float _ | halved _ | bytes _ | date _ | clock _ | moment _ => rfl
  | list items => exact fragments_list items
  | table fields =>
      rw [visible, entries, ← fragments_list, fragments_texts]
      rfl

theorem fragments_eq_ok (h : fragments (.list items) = .ok names) :
    names = (items.filter fun item => ¬ BlankName item.plain).map
      fun item => lowered item.plain := by
  rw [fragments] at h
  split at h
  case isTrue => cases h
  case isFalse => rw [← named_plain, ← Except.ok.inj h]

/-- A fragment is blank only if it is a setting of its own. -/
theorem exists_blank_fragment_iff (h : fragments t = .ok names) :
    (∃ name ∈ names, BlankName name) ↔ BlankAlone t := by
  constructor
  · rintro ⟨name, member, blank⟩
    by_contra other
    rw [fragments_eq other] at h
    rw [fragments_eq_ok h] at member
    obtain ⟨item, kept, rfl⟩ := List.mem_map.1 member
    exact of_decide_eq_true (List.mem_filter.1 kept).2 (blankName_lowered_iff.1 blank)
  · rintro ⟨name, rfl, blank⟩
    cases h
    exact ⟨_, List.mem_singleton_self _, blankName_lowered_iff.2 blank⟩

end Fragments

section Settings

/-- The names of a family, by the key that settings have for it. -/
def under (families : Families) : String → List String
  | "essential" => families.essential
  | "large_utility" => families.largeUtility
  | "framework" => families.framework
  | _ => []

/-- What settings have under the key of a family. -/
def setting? (settings : Fields) (key : String) : Option Tree :=
  (classified settings "families").find? key

/-- The entries under the key of a family with something to see in them. -/
def visibleUnder (settings : Fields) (key : String) : List Tree :=
  (setting? settings key).elim [] visible

def BlankUnder (settings : Fields) (key : String) : Prop :=
  ∃ t, setting? settings key = some t ∧ BlankAlone t

theorem tabled_of_ofSettings (h : ofSettings settings = .ok families) : Tabled settings := by
  obtain ⟨_, part, _⟩ := bind_eq_ok_iff.1 h
  have part := mapError_eq_ok_iff.1 part
  intro value found
  rw [Fields.part, found] at part
  cases value with
  | table fields => rfl
  | scalar _ | list _ => cases part

theorem not_blankName_builtIn : ∀ key ∈ keys, ∀ name ∈ builtIn.under key, ¬ BlankName name := by
  decide +kernel

theorem not_blankName_of_mem_visibleUnder {entry : Tree} (h : entry ∈ visibleUnder settings key) :
    ¬ BlankName entry.plain := by
  rw [visibleUnder] at h
  cases found : setting? settings key with
  | none =>
      rw [found] at h
      cases h
  | some t =>
      rw [found] at h
      exact of_decide_eq_true (List.mem_filter.1 h).2

theorem fragmentsUnder_eq (h : ¬ BlankUnder settings key) :
    fragmentsUnder key (classified settings "families") =
      fragments (.list (visibleUnder settings key)) := by
  rw [fragmentsUnder, visibleUnder]
  cases found : setting? settings key with
  | none =>
      rw [show (classified settings "families").find? key = none from found]
      rfl
  | some t =>
      rw [show (classified settings "families").find? key = some t from found]
      exact fragments_eq fun blank => h ⟨t, found, blank⟩

theorem under_ofEntries (h : ofEntries configured = .ok families) (listed : key ∈ keys) :
    ∃ names, fragmentsUnder key configured = .ok names ∧
      families.under key = builtIn.under key ++ names := by
  obtain ⟨_, _, _, essential, largeUtility, framework, rfl⟩ := ofEntries_eq_ok_iff.1 h
  simp only [keys, List.mem_cons, List.not_mem_nil, or_false] at listed
  obtain rfl | rfl | rfl := listed
  · exact ⟨_, essential, rfl⟩
  · exact ⟨_, largeUtility, rfl⟩
  · exact ⟨_, framework, rfl⟩

theorem under_ofSettings (h : ofSettings settings = .ok families) (listed : key ∈ keys) :
    ∃ names, fragmentsUnder key (classified settings "families") = .ok names ∧
      families.under key = builtIn.under key ++ names := by
  rw [ofSettings_eq (tabled_of_ofSettings h)] at h
  exact under_ofEntries (mapError_eq_ok_iff.1 h) listed

/-- A family has a blank name exactly if settings give it a blank text alone. -/
theorem exists_blank_under_iff (h : ofSettings settings = .ok families) (listed : key ∈ keys) :
    (∃ name ∈ families.under key, BlankName name) ↔ BlankUnder settings key := by
  obtain ⟨names, read, joined⟩ := under_ofSettings h listed
  have given : (∃ name ∈ families.under key, BlankName name) ↔ ∃ name ∈ names, BlankName name := by
    rw [joined]
    constructor
    · rintro ⟨name, member, blank⟩
      obtain own | more := List.mem_append.1 member
      · exact absurd blank (not_blankName_builtIn key listed name own)
      · exact ⟨name, more, blank⟩
    · rintro ⟨name, member, blank⟩
      exact ⟨name, List.mem_append_right _ member, blank⟩
  rw [given, BlankUnder]
  cases found : (classified settings "families").find? key with
  | none =>
      rw [fragmentsUnder, found] at read
      cases read
      simp [setting?, found]
  | some t =>
      rw [fragmentsUnder, found] at read
      simp [setting?, found, exists_blank_fragment_iff read]

/-- The names of a family are those built in and the visible entries in lower case. -/
theorem under_eq (h : ofSettings settings = .ok families) (listed : key ∈ keys)
    (seen : ¬ BlankUnder settings key) :
    families.under key =
      builtIn.under key ++ (visibleUnder settings key).map fun entry => lowered entry.plain := by
  obtain ⟨names, read, joined⟩ := under_ofSettings h listed
  rw [fragmentsUnder_eq seen] at read
  have all : (visibleUnder settings key).filter (fun entry => ¬ BlankName entry.plain)
      = visibleUnder settings key :=
    List.filter_eq_self.2 fun entry member =>
      decide_eq_true (not_blankName_of_mem_visibleUnder member)
  rw [joined, fragments_eq_ok read, all]

theorem ofEntries_congr {configured others : Fields}
    (same : ∀ key ∈ keys, fragmentsUnder key configured = fragmentsUnder key others) :
    ofEntries configured = ofEntries others := by
  obtain ⟨essential, same⟩ := List.forall_mem_cons.1 same
  obtain ⟨largeUtility, same⟩ := List.forall_mem_cons.1 same
  rw [ofEntries, ofEntries, essential, largeUtility, List.forall_mem_singleton.1 same]

/-- Settings give a family a blank name exactly by a blank text alone, in no list. All else that
they add to it is its visible entries in lower case, so settings with the same visible entries
give the same families, and every category under them is the same. -/
theorem ofSettings_visible (settings : Fields) :
    (∀ families, ofSettings settings = .ok families → ∀ key ∈ keys,
      ((∃ name ∈ families.under key, BlankName name) ↔ BlankUnder settings key) ∧
      (¬ BlankUnder settings key → families.under key = builtIn.under key ++
        (visibleUnder settings key).map fun entry => lowered entry.plain)) ∧
    ∀ others, Tabled settings → Tabled others →
      (∀ key ∈ keys, ¬ BlankUnder settings key ∧ ¬ BlankUnder others key ∧
        visibleUnder others key = visibleUnder settings key) →
      ofSettings others = ofSettings settings ∧
        ∀ families families', ofSettings settings = .ok families →
          ofSettings others = .ok families' → ∀ sizes evidence d,
            (Verdict.of ⟨families', sizes⟩ evidence d).category =
              (Verdict.of ⟨families, sizes⟩ evidence d).category := by
  refine ⟨fun families read key listed => ⟨exists_blank_under_iff read listed,
    under_eq read listed⟩, fun others tabled tabled' alike => ?_⟩
  have same : ofSettings others = ofSettings settings := by
    rw [ofSettings_eq tabled, ofSettings_eq tabled']
    refine congrArg _ (ofEntries_congr fun key listed => ?_)
    obtain ⟨seen, seen', visible⟩ := alike key listed
    rw [fragmentsUnder_eq seen, fragmentsUnder_eq seen', visible]
  refine ⟨same, fun families families' read read' sizes evidence d => ?_⟩
  obtain rfl : families' = families := Except.ok.inj (read'.symm.trans (same.trans read))
  rfl

/-- Blank items of a list and blank keys of a table beside settings without them. -/
theorem ofSettings_of_blanks :
    let settings : Fields := [("classification", .table [("families", .table
      [("essential", .text "GUAVA"), ("framework", .list [.text "joda"])])])]
    let others : Fields := [("classification", .table [("families", .table
      [("essential", .list [.text "", .text "GUAVA", .text " "]),
        ("framework", .table [("\t", .text "x"), ("joda", .text "")])])])]
    let families : Families := { Families.builtIn with
      essential := Families.builtIn.essential ++ ["guava"]
      framework := Families.builtIn.framework ++ ["joda"] }
    Tabled settings ∧ Tabled others ∧
      (∀ key ∈ keys, ¬ BlankUnder settings key ∧ ¬ BlankUnder others key ∧
        visibleUnder others key = visibleUnder settings key) ∧
      ofSettings settings = .ok families ∧ ofSettings others = .ok families ∧
      families.under "essential" = builtIn.under "essential" ++
        (visibleUnder others "essential").map (fun entry => lowered entry.plain) := by
  intro settings others families
  have tabled : Tabled settings := by
    rintro value ⟨⟩
    rfl
  have tabled' : Tabled others := by
    rintro value ⟨⟩
    rfl
  have read : ofSettings settings = .ok families := by decide +kernel
  have read' : ofSettings others = .ok families := by decide +kernel
  have seen : ∀ key ∈ keys, ¬ ∃ name ∈ families.under key, BlankName name := by decide +kernel
  have alike : ∀ key ∈ keys, visibleUnder others key = visibleUnder settings key := by
    simp only [keys, List.forall_mem_cons]
    exact ⟨rfl, rfl, rfl, List.forall_mem_nil _⟩
  obtain ⟨given, same⟩ := ofSettings_visible settings
  have more := (ofSettings_visible others).1 families read'
  have alike : ∀ key ∈ keys, ¬ BlankUnder settings key ∧ ¬ BlankUnder others key ∧
      visibleUnder others key = visibleUnder settings key := fun key listed =>
    ⟨fun blank => seen key listed ((given families read key listed).1.2 blank),
      fun blank => seen key listed ((more key listed).1.2 blank), alike key listed⟩
  have essential : "essential" ∈ keys := List.mem_cons_self
  exact ⟨tabled, tabled', alike, read, (same others tabled tabled' alike).1.trans read,
    (more "essential" essential).2 (alike "essential" essential).2.1⟩

/-- An empty text under the key of the large utilities is a name of theirs. Then a dependency that
no name tells anything about is taken for an unused one, and so is every other that is neither
essential nor for tests. -/
theorem empty_text_flags :
    let settings : Fields := [("classification", .table [("families", .table
      [("large_utility", .text "")])])]
    let families : Families := { Families.builtIn with
      largeUtility := Families.builtIn.largeUtility ++ [""] }
    let logging : Declaration := ⟨⟨"org.slf4j", "slf4j-api", "2.0.13"⟩, 1, "", .implementation⟩
    ofSettings settings = .ok families ∧ BlankName "" ∧ "" ∈ families.under "large_utility" ∧
      (Verdict.byName .builtIn logging).category = .unknown ∧
      (Verdict.byName families logging).category = .likelyUnused ∧
      (Verdict.byName families logging).flagged = true ∧
      ∀ d, (Verdict.byName families d).category.place ≤ Category.likelyUnused.place := by
  intro settings families logging
  have empty : "" ∈ families.largeUtility := List.mem_append_right _ (List.mem_singleton_self _)
  exact ⟨by decide +kernel, by decide, empty, by decide +kernel, by decide +kernel,
    by decide +kernel, fun _ => Verdict.place_le_of_empty empty⟩

end Settings
end Families
end DependencyAudit
