import DependencyAudit.Evidence.File
import DependencyAudit.Proofs.Json.Limits
import DependencyAudit.Proofs.Json.RoundTrip

/-!
Evidence that is not had. A file that is missing, is no text or is malformed is a fault of the
file. Not so a null character in its path, a JSON text with too long a number or too many
brackets, and a YAML text that is well formed but holds a value that cannot be had: these
escape as faults of another kind.
-/
namespace DependencyAudit
namespace Evidence

/-- Reading comes to evidence or to a fault of the file. -/
inductive Told (p : Path) : Except EvidenceFault Evidence → Prop
  | evidence (resolved : Evidence) : Told p (.ok resolved)
  | fault (cause : EvidenceCause) : Told p (.error (.file cause p))

/-- A text is no evidence, and that is no fault of its form: it is JSON with too long a number
or too many brackets, or YAML with a value that cannot be had or shown. -/
inductive Undecoded (p : Path) (text : List Char) : Prop
  | json (problem : Json.Problem) : p.kind = ".json" → Json.read text = .error problem →
      (∀ f, problem ≠ .fault f) → Undecoded p text
  | yaml (f : Yaml.Fault) : p.kind = ".yaml" ∨ p.kind = ".yml" → Yaml.read text = .error f →
      (∀ cause, f ≠ .malformed cause) → Undecoded p text
  | item (d : Yaml.Document) (items : List Yaml.Value) (item : Yaml.Value) :
      p.kind = ".yaml" ∨ p.kind = ".yml" → Yaml.read text = .ok (some d) →
      yamlItems? d = some items → item ∈ items → d.plain item = .error ⟨⟩ → Undecoded p text

/-- Evidence is not read, and what stops it is no fault of the file. -/
inductive Escapes (tree : FileTree) (env : Environment) (p : Path) : Prop
  | null : p.hasNull = true → Escapes tree env p
  | text (text : List Char) : tree.readText env p = .ok text → Undecoded p text →
      Escapes tree env p

section Decode
variable {p : Path} {text : List Char} {t : Tree} {items : List Tree} {f : EvidenceFault}

theorem not_told (other : ∀ cause q, f ≠ .file cause q) : ¬ Told p (.error f) := by
  intro told
  cases told with
  | fault cause => exact other cause p rfl

theorem anyLong_of_isLong (short : t.isLong = false) (h : listed? t = some items) :
    Tree.anyLong items = false := by
  unfold listed? at h
  split at h <;> cases h
  · rfl
  · exact short

/-- What is listed in a document without long numbers has none. -/
theorem anyLong_items (short : t.isLong = false) (h : items? t = some items) :
    Tree.anyLong items = false := by
  unfold items? at h
  split at h
  case h_1 fields =>
    refine anyLong_of_isLong ?_ h
    cases found : Fields.find? resolvedKey fields with
    | none => rfl
    | some value => exact Json.isLong_of_mem_fields short _ (Fields.mem_of_find? found)
  case h_2 => exact anyLong_of_isLong short h

theorem told_ofJsonText_iff :
    Told p (ofJsonText p text) ↔
      ∀ problem, Json.read text = .error problem → ∃ f, problem = .fault f := by
  unfold ofJsonText
  cases read : Json.read text with
  | error problem =>
      cases problem with
      | fault f =>
          refine iff_of_true (.fault _) fun problem same => ?_
          cases same
          exact ⟨f, rfl⟩
      | longNumber _ | nested _ =>
          refine iff_of_false (not_told nofun) fun all => ?_
          obtain ⟨_, ⟨⟩⟩ := all _ rfl
  | ok t =>
      refine iff_of_true ?_ nofun
      dsimp only
      split
      case h_1 items listed =>
        rw [if_neg (by simp [anyLong_items (Json.isLong_read read) listed])]
        exact .evidence _
      case h_2 => exact .fault _

/-- Items come to evidence exactly if each of them can be shown. -/
theorem told_mapM_plain_iff {d : Yaml.Document} {items : List Yaml.Value} :
    Told p (((items.mapM d.plain).map cleaned).mapError .longInteger) ↔
      ∀ item ∈ items, d.plain item ≠ .error ⟨⟩ := by
  cases shown : items.mapM d.plain with
  | ok texts =>
      refine iff_of_true (.evidence _) fun item member long => ?_
      obtain ⟨_, short⟩ := exists_ok_of_mapM shown item member
      cases long.symm.trans short
  | error long =>
      refine iff_of_false (not_told nofun) fun all => ?_
      obtain ⟨item, member, refused⟩ := exists_error_of_mapM shown
      exact all item member refused

theorem told_ofYamlText_iff :
    Told p (ofYamlText p text) ↔
      (∀ f, Yaml.read text = .error f → ∃ cause, f = .malformed cause) ∧
      ∀ d items item, Yaml.read text = .ok (some d) → yamlItems? d = some items →
        item ∈ items → d.plain item ≠ .error ⟨⟩ := by
  unfold ofYamlText
  split
  case h_1 cause read =>
    rw [read]
    exact iff_of_true (.fault _) ⟨fun f same => ⟨cause, (Except.error.inj same).symm⟩, nofun⟩
  case h_2 f other read =>
    rw [read]
    refine iff_of_false (not_told nofun) fun all => ?_
    obtain ⟨cause, same⟩ := all.1 f rfl
    exact other cause same
  case h_3 read =>
    rw [read]
    exact iff_of_true (.evidence _) ⟨nofun, nofun⟩
  case h_4 d read =>
    rw [read]
    split
    case h_1 items listed =>
      rw [told_mapM_plain_iff]
      constructor
      · refine fun shown => ⟨nofun, fun d' items' item document listed' => ?_⟩
        cases document
        cases listed.symm.trans listed'
        exact shown item
      · exact fun all item => all.2 d items item rfl listed
    case h_2 unlisted =>
      refine iff_of_true (.fault _) ⟨nofun, fun d' items item document listed => ?_⟩
      cases document
      cases unlisted.symm.trans listed

theorem told_decode_iff : Told p (decode p text) ↔ ¬ Undecoded p text := by
  unfold decode
  split
  case isTrue json =>
    rw [told_ofJsonText_iff]
    constructor
    · rintro faults (⟨problem, _, refused, other⟩ | ⟨_, yaml, _⟩ | ⟨_, _, _, yaml, _⟩)
      · obtain ⟨f, rfl⟩ := faults problem refused
        exact other f rfl
      all_goals simp [json] at yaml
    · intro kept problem refused
      by_contra other
      exact kept (.json problem json refused fun f fault => other ⟨f, fault⟩)
  case isFalse other =>
    split
    case isTrue yaml =>
      rw [told_ofYamlText_iff]
      constructor
      · rintro ⟨faults, shown⟩ (⟨_, json, _⟩ | ⟨f, _, refused, fault⟩ |
          ⟨d, items, item, _, document, listed, member, long⟩)
        · exact other json
        · obtain ⟨cause, rfl⟩ := faults f refused
          exact fault cause rfl
        · exact shown d items item document listed member long
      · refine fun kept => ⟨fun f refused => ?_, fun d items item document listed member long => ?_⟩
        · by_contra fault
          exact kept (.yaml f yaml refused fun cause same => fault ⟨cause, same⟩)
        · exact kept (.item d items item yaml document listed member long)
    case isFalse plain =>
      refine iff_of_true (.evidence _) ?_
      rintro (⟨_, json, _⟩ | ⟨_, yaml, _⟩ | ⟨_, _, _, yaml, _⟩)
      · exact other json
      · exact plain yaml
      · exact plain yaml

end Decode

section File
variable {tree : FileTree} {env : Environment} {p : Path}

theorem told_readFault_iff {f : ReadFault} :
    Told p (.error (readFault p f)) ↔ ∀ q, f ≠ .file ⟨.nullCharacter, q⟩ := by
  unfold readFault
  split
  case h_1 q => exact iff_of_false (not_told nofun) fun other => other q rfl
  case h_2 other => exact iff_of_true (.fault _) other

theorem follow_ne_null {start parts : List String} :
    tree.follow start parts ≠ .error .nullCharacter := by
  induction parts generalizing start with
  | nil => exact nofun
  | cons part parts ih =>
      rw [FileTree.follow]
      split
      case h_1 => exact nofun
      case h_2 => exact nofun
      case h_3 =>
        split
        case isTrue => exact nofun
        case isFalse => exact ih

theorem placeOf_eq_null_iff : tree.placeOf env p = .error .nullCharacter ↔ p.hasNull = true := by
  unfold FileTree.placeOf
  split
  case isTrue null => exact iff_of_true rfl null
  case isFalse whole =>
    split
    case isTrue => exact iff_of_false nofun whole
    case isFalse => exact iff_of_false follow_ne_null whole

/-- A null character is seen before anything else about a path. -/
theorem readText_eq_null_iff :
    (∃ q, tree.readText env p = .error (.file ⟨.nullCharacter, q⟩)) ↔ p.hasNull = true := by
  have place : tree.placeOf env p = .error .nullCharacter ↔ p.hasNull = true := placeOf_eq_null_iff
  rw [← place]
  constructor
  · rintro ⟨q, h⟩
    obtain unread | ⟨content, _, h⟩ := bind_eq_error_iff.1 h
    · obtain ⟨f, unread, same⟩ := mapError_eq_error_iff.1 unread
      cases same
      unfold FileTree.read at unread
      split at unread
      case h_1 cause led =>
        cases unread
        exact led
      case h_2 => split at unread <;> cases unread
    · obtain undecoded | ⟨_, _, h⟩ := bind_eq_error_iff.1 h
      · obtain ⟨_, _, ⟨⟩⟩ := mapError_eq_error_iff.1 undecoded
      · cases h
  · intro led
    refine ⟨p, bind_eq_error_iff.2 (.inl (mapError_eq_error_iff.2 ⟨_, ?_, rfl⟩))⟩
    rw [FileTree.read, led]

/-- Reading comes to evidence or to a fault of the file exactly if nothing escapes. -/
theorem told_readEvidence_iff : Told p (tree.readEvidence env p) ↔ ¬ Escapes tree env p := by
  cases read : tree.readText env p with
  | error f =>
      have stopped : tree.readEvidence env p = .error (readFault p f) := by
        simp only [FileTree.readEvidence, read, Except.mapError, bind, Except.bind]
      rw [stopped, told_readFault_iff]
      constructor
      · rintro other (null | ⟨_, read', _⟩)
        · obtain ⟨q, null⟩ := readText_eq_null_iff.2 null
          exact other q (Except.error.inj (read.symm.trans null))
        · cases read.symm.trans read'
      · rintro kept q rfl
        exact kept (.null (readText_eq_null_iff.1 ⟨q, read⟩))
  | ok text =>
      have decoded : tree.readEvidence env p = decode p text := by
        simp only [FileTree.readEvidence, read, Except.mapError, bind, Except.bind]
      rw [decoded, told_decode_iff]
      refine not_congr ⟨.text text read, ?_⟩
      rintro (null | ⟨_, read', undecoded⟩)
      · obtain ⟨q, null⟩ := readText_eq_null_iff.2 null
        cases read.symm.trans null
      · cases read.symm.trans read'
        exact undecoded

theorem path_of_decode {text : List Char} {cause : EvidenceCause} {q : Path}
    (h : decode p text = .error (.file cause q)) : q = p := by
  unfold decode at h
  split at h
  case isTrue =>
    unfold ofJsonText at h
    split at h
    case h_4 =>
      split at h
      case h_1 => split at h <;> cases h
      case h_2 =>
        cases h
        rfl
    all_goals cases h
    rfl
  case isFalse =>
    split at h
    case isTrue =>
      unfold ofYamlText at h
      split at h
      case h_1 =>
        cases h
        rfl
      case h_2 => cases h
      case h_3 => cases h
      case h_4 =>
        split at h
        case h_1 =>
          obtain ⟨_, _, ⟨⟩⟩ := mapError_eq_error_iff.1 h
        case h_2 =>
          cases h
          rfl
    case isFalse => cases h

/-- A fault of a file names the file that was to be read. -/
theorem path_of_readEvidence {cause : EvidenceCause} {q : Path}
    (h : tree.readEvidence env p = .error (.file cause q)) : q = p := by
  obtain unread | ⟨text, _, undecoded⟩ := bind_eq_error_iff.1 h
  · obtain ⟨f, _, same⟩ := mapError_eq_error_iff.1 unread
    unfold readFault at same
    split at same <;> cases same
    rfl
  · exact path_of_decode undecoded

theorem told_error_iff {f : EvidenceFault} (unread : tree.readEvidence env p = .error f) :
    Told p (.error f) ↔ ∃ cause q, f = .file cause q := by
  constructor
  · rintro (_ | ⟨cause⟩)
    exact ⟨cause, p, rfl⟩
  · rintro ⟨cause, q, rfl⟩
    obtain rfl := path_of_readEvidence unread
    exact .fault cause

/-- Outside YAML, little escapes: a null character in the path, and in JSON a run of too many
digits or more brackets than may be open. -/
theorem Escapes.cases (h : Escapes tree env p) :
    p.hasNull = true ∨ p.kind = ".yaml" ∨ p.kind = ".yml" ∨
      p.kind = ".json" ∧ ∃ text, tree.readText env p = .ok text ∧
        ((∃ n, Json.HasLongRun text n) ∨ Json.nestingLimit < text.countP Json.isOpening) := by
  obtain null | ⟨text, read, undecoded⟩ := h
  · exact .inl null
  · cases undecoded with
    | json problem json refused other =>
        refine .inr (.inr (.inr ⟨json, text, read, ?_⟩))
        obtain ⟨f, rfl⟩ | ⟨n, _, run⟩ | ⟨_, _, brackets⟩ := Json.read_eq_error refused
        · exact absurd rfl (other f)
        · exact .inl ⟨n, run⟩
        · exact .inr brackets
    | yaml _ yaml | item _ _ _ yaml => exact .inr (or_assoc.1 (.inl yaml))

end File
end Evidence
end DependencyAudit
