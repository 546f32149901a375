import DependencyAudit.Proofs.Settings.Load

/-!
Where the settings say that the evidence is. A setting that is empty or zero says nothing. Any
other is taken for a path: a text that leads to a place gives that place, and a text that leads
to none, like a value that is no text, is a fault.
-/
namespace DependencyAudit

namespace Environment
variable {env : Environment} {p place : Path} {f : PathFault}

/-- The ways in which a path leads to no place. -/
inductive Lost (env : Environment) : Path → PathFault → Prop
  | noHome {user : List Char} {rest : List String} : '\x00' ∉ user →
      env.homeOf? (String.ofList user) = none →
      Lost env ⟨"", String.ofList ('~' :: user) :: rest⟩ .noHome
  | nullUser {user : List Char} {rest : List String} : '\x00' ∈ user →
      Lost env ⟨"", String.ofList ('~' :: user) :: rest⟩ .nullCharacter
  | null {p q : Path} : env.expandHome p = .ok q → q.hasNull = true → Lost env p .nullCharacter

/-- Only the home of a user fails to be found. -/
theorem lost_of_expandHome (h : env.expandHome p = .error f) : Lost env p f := by
  obtain ⟨root, parts⟩ := p
  unfold expandHome at h
  split at h
  case h_1 first rest absent spelled =>
    split at h
    case h_1 user spelled' =>
      obtain rfl : root = "" := absent
      obtain rfl : parts = first :: rest := spelled
      obtain rfl : String.ofList ('~' :: user) = first := by rw [← spelled', String.ofList_toList]
      split at h
      case isTrue null =>
        cases h
        exact .nullUser (List.contains_iff_mem.1 null)
      case isFalse spared =>
        split at h
        case h_1 => cases h
        case h_2 homeless =>
          cases h
          exact .noHome (mt List.contains_iff_mem.2 spared) homeless
    case h_2 => cases h
  case h_2 => cases h

theorem locate_eq_error_iff : env.locate p = .error f ↔ Lost env p f := by
  constructor
  · intro h
    obtain h | ⟨q, expanded, h⟩ := bind_eq_error_iff.1 h
    · exact lost_of_expandHome h
    · unfold resolve at h
      split at h
      case isTrue null =>
        cases h
        exact .null expanded null
      case isFalse => cases h
  · intro h
    cases h with
    | noHome spared homeless =>
        have spared := mt List.contains_iff_mem.1 spared
        simp only [locate, expandHome, String.toList_ofList, spared, homeless]
        rfl
    | nullUser null =>
        have null := List.contains_iff_mem.2 null
        simp only [locate, expandHome, String.toList_ofList, null]
        rfl
    | null expanded null =>
        simp only [locate, expanded, bind, Except.bind, resolve, null, if_true]

theorem isAbsolute_of_locate (h : env.locate p = .ok place) : place.isAbsolute = true := by
  obtain ⟨q, _, h⟩ := bind_eq_ok_iff.1 h
  unfold resolve at h
  split at h
  case isTrue => cases h
  case isFalse =>
    cases h
    rfl

end Environment

namespace Settings
variable {env : Environment} {settings : Fields}
  {result : Except EvidencePathFault (Option Path)}

/-- What comes of looking up the evidence in the settings. -/
inductive Lookup (env : Environment) (settings : Fields) :
    Except EvidencePathFault (Option Path) → Prop
  | silent : (∀ value, (Tree.table settings).at? ["evidence", "file"] = some value →
      value.isGiven = false) → Lookup env settings (.ok none)
  | place {text : String} {place : Path} :
      (Tree.table settings).at? ["evidence", "file"] = some (.text text) → text ≠ "" →
      env.expandPath text = .ok place → place.isAbsolute = true →
      Lookup env settings (.ok (some place))
  | lost {text : String} {f : PathFault} :
      (Tree.table settings).at? ["evidence", "file"] = some (.text text) → text ≠ "" →
      env.Lost (Path.ofString (env.expandVariables text)) f → Lookup env settings (.error (.path f))
  | notPath {value : Tree} : (Tree.table settings).at? ["evidence", "file"] = some value →
      value.isGiven = true → (∀ text, value ≠ .text text ∧ value ≠ .scalar (.halved text)) →
      Lookup env settings (.error (.notPath value.kindName))

/-- The settings have no text with half of a surrogate pair for the place of the evidence. What
such a text comes to is up to how names of files are coded, and not described here. -/
def Whole (settings : Fields) : Prop :=
  ∀ text, (Tree.table settings).at? ["evidence", "file"] ≠ some (.scalar (.halved text))

theorem lookup_ofSetting (env : Environment) (whole : Whole settings) :
    Lookup env settings (ofSetting env settings) := by
  unfold ofSetting
  split
  case h_1 silent =>
    refine .silent fun value found => ?_
    rw [found, Option.filter_eq_none_iff] at silent
    simpa using silent value rfl
  case h_2 text found =>
    obtain ⟨found, given⟩ := Option.filter_eq_some_iff.1 found
    have nonempty := isGiven_text.1 given
    rw [expand]
    cases expanded : env.expandPath text with
    | ok place => exact .place found nonempty expanded (Environment.isAbsolute_of_locate expanded)
    | error f => exact .lost found nonempty (Environment.locate_eq_error_iff.1 expanded)
  case h_3 value other found =>
    obtain ⟨found, given⟩ := Option.filter_eq_some_iff.1 found
    exact .notPath found given fun text =>
      ⟨fun same => other text same, fun same => whole text (same ▸ found)⟩

theorem Lookup.eq (h : Lookup env settings result) : result = ofSetting env settings := by
  cases h with
  | silent silent =>
      have ungiven :
          ((Tree.table settings).at? ["evidence", "file"]).filter Tree.isGiven = none := by
        rw [Option.filter_eq_none_iff]
        exact fun value found => by simp [silent value found]
      simp only [ofSetting, ungiven]
  | place found nonempty expanded _ =>
      simp only [ofSetting, found, Option.filter, isGiven_text.2 nonempty, if_true, expand,
        expanded]
  | lost found nonempty lost =>
      have failed : env.expandPath _ = .error _ := Environment.locate_eq_error_iff.2 lost
      simp only [ofSetting, found, Option.filter, isGiven_text.2 nonempty, if_true, expand, failed]
  | notPath found given other =>
      have textless text := (other text).1
      simp only [ofSetting, found, Option.filter, given, if_true]

theorem ofSetting_eq_iff (whole : Whole settings) :
    ofSetting env settings = result ↔ Lookup env settings result :=
  ⟨fun same => same ▸ lookup_ofSetting env whole, fun h => h.eq.symm⟩

/-- A text with half of a surrogate pair is refused by the name of its kind, and nothing else is. -/
theorem whole_of_ne (accepted : Accepted settings)
    (unset : env.given? "DEP_AUDITOR_EVIDENCE_FILE" = none)
    (other : evidencePath env settings none ≠ .error (.notPath "str")) : Whole settings := by
  intro text found
  rw [evidencePath_eq_ofSetting accepted unset, ofSetting, found] at other
  exact other rfl

end Settings
end DependencyAudit
