import DependencyAudit.Command.Run
import DependencyAudit.Proofs.Results

/-!
Command lines. What stands before a command is read the same way whichever command it is
and whatever follows, so two commands behind the same options run in the same session.
-/
namespace DependencyAudit.Command

namespace Options
variable {α : Type} {o : Options α} {front rest : List String} {options : List α}

theorem read_argument (mixed : o.mixed = true) {arg : String} (ends : arg ≠ "--")
    (argument : isOption arg.toList = false) (rest : List String) :
    o.read (arg :: rest) = (o.read rest).map fun found => (found.1, arg :: found.2) := by
  rw [read.eq_def]
  simp only [ends, argument, mixed, Bool.false_eq_true, if_false, if_true]
  cases o.read rest <;> rfl

/-- An option that waits for its value takes the next argument. -/
theorem read_value {name : String} {f : String → α} (ends : name ≠ "--")
    (option : isOption name.toList = true) (named : o.written name.toList = .awaiting [] name f)
    (value : String) (rest : List String) :
    o.read (name :: value :: rest) =
      (o.read rest).map fun found => (f value :: found.1, found.2) := by
  rw [read.eq_def]
  simp only [ends, option, named, if_false, if_true]
  cases o.read rest <;> rfl

/-- Options that are all of a line are read alike before an argument that ends them. -/
theorem read_append (unmixed : o.mixed = false) {arg : String} (ends : arg ≠ "--")
    (argument : isOption arg.toList = false) (h : o.read front = .ok (options, [])) :
    o.read (front ++ arg :: rest) = .ok (options, arg :: rest) := by
  induction front using Options.read.induct o generalizing options with
  | case1 =>
      cases h
      rw [List.nil_append, read.eq_def]
      simp only [ends, argument, unmixed, Bool.false_eq_true, if_false]
  | case2 more =>
      rw [read.eq_def] at h
      simp only [if_true, Except.ok.injEq, Prod.mk.injEq] at h
      obtain ⟨rfl, rfl⟩ := h
      rw [List.singleton_append, read.eq_def]
      simp only [if_true]
  | case3 arg more ends option f fault =>
      rw [read.eq_def] at h
      simp [ends, option, fault] at h
  | case4 arg ends option given more written ih =>
      rw [read.eq_def] at h
      simp only [ends, option, written, if_false, if_true] at h
      obtain ⟨⟨others, left⟩, hmore, h⟩ := bind_eq_ok_iff.1 h
      cases h
      rw [List.cons_append, read.eq_def]
      simp only [ends, option, written, if_false, if_true, ih hmore]
      rfl
  | case5 arg ends option given name last written =>
      rw [read.eq_def] at h
      simp [ends, option, written] at h
  | case6 arg ends option given name last value more written ih =>
      rw [read.eq_def] at h
      simp only [ends, option, written, if_false, if_true] at h
      obtain ⟨⟨others, left⟩, hmore, h⟩ := bind_eq_ok_iff.1 h
      cases h
      rw [List.cons_append, List.cons_append, read.eq_def]
      simp only [ends, option, written, if_false, if_true, ih hmore]
      rfl
  | case7 arg more _ _ mixed _ => exact absurd mixed (by simp [unmixed])
  | case8 arg more ends option _ =>
      rw [read.eq_def] at h
      simp [ends, option, unmixed] at h

end Options

theorem Name.isArgument {name : String} {n : Name} (h : Name.ofText? name = some n) :
    name ≠ "--" ∧ Options.isOption name.toList = false := by
  have listed : name ∈ ["audit", "declarations", "explain"] := by
    rw [Name.ofText?] at h
    by_contra other
    simp only [List.mem_cons, List.not_mem_nil, or_false, not_or] at other
    simp only [List.lookup_cons, beq_false_of_ne other.1, beq_false_of_ne other.2.1,
      beq_false_of_ne other.2.2] at h
    cases h
  simp only [List.mem_cons, List.not_mem_nil, or_false] at listed
  obtain rfl | rfl | rfl := listed <;> decide

section Line
variable {env : Environment} {files : FileTree} {front rest : List String}
  {options : List GeneralOption} {name : String} {n : Name} {s : Session} {request : Request}

/-- A session is about the environment and the files that it was begun with, and its tables are
made from the settings that it has loaded. -/
theorem begin_eq_ok {general : General} (h : begin env files general = .ok s) :
    ∃ p settings tables, Session.settingsPath env general = .ok p ∧
      Settings.load files env p = .ok settings ∧ Tables.ofSettings settings = .ok tables ∧
      s = ⟨env, files, general, settings, tables⟩ := by
  unfold begin at h
  split_ifs at h
  obtain ⟨p, located, h⟩ := bind_eq_ok_iff.1 h
  obtain ⟨settings, loaded, h⟩ := bind_eq_ok_iff.1 h
  obtain ⟨tables, made, h⟩ := bind_eq_ok_iff.1 h
  cases h
  exact ⟨p, settings, tables, mapError_eq_ok_iff.1 located, mapError_eq_ok_iff.1 loaded,
    mapError_eq_ok_iff.1 made, rfl⟩

theorem split_append (read : generalOptions.read front = .ok (options, []))
    (named : Name.ofText? name = some n) (rest : List String) :
    split (front ++ name :: rest) = (General.ofOptions options).map fun general =>
      if general.help then (general, none) else (general, some (n, rest)) := by
  obtain ⟨ends, argument⟩ := Name.isArgument named
  rw [split, Options.read_append rfl ends argument read]
  change (General.ofOptions options >>= fun general => _) = _
  cases General.ofOptions options with
  | error f => rfl
  | ok general =>
      change (if general.help then _ else _) = Except.ok (if general.help then _ else _)
      cases general.help with
      | true => rfl
      | false => simp only [named]; rfl

/-- The options before a command settle the session, and what is behind it the request. -/
theorem prepare_append_iff (read : generalOptions.read front = .ok (options, []))
    (named : Name.ofText? name = some n) :
    prepare env files (front ++ name :: rest) = .ok (s, request) ↔
      ∃ general, General.ofOptions options = .ok general ∧ general.help = false ∧
        begin env files general = .ok s ∧ Request.ofArguments n rest = .ok request := by
  rw [prepare, split_append read named]
  cases settled : General.ofOptions options with
  | error f => exact ⟨nofun, nofun⟩
  | ok general =>
      cases helps : general.help with
      | true =>
          simp only [Except.map, helps, if_true]
          constructor
          · intro h
            obtain ⟨_, ⟨⟩, h⟩ := bind_eq_ok_iff.1 h
            obtain ⟨_, _, ⟨⟩⟩ := bind_eq_ok_iff.1 h
          · rintro ⟨_, ⟨⟩, helps', _⟩
            cases helps.symm.trans helps'
      | false =>
          simp only [Except.map, helps, Bool.false_eq_true, if_false]
          constructor
          · intro h
            obtain ⟨_, ⟨⟩, h⟩ := bind_eq_ok_iff.1 h
            obtain ⟨session, begun, h⟩ := bind_eq_ok_iff.1 h
            obtain ⟨_, asked, h⟩ := bind_eq_ok_iff.1 h
            cases h
            exact ⟨general, rfl, helps, begun, mapError_eq_ok_iff.1 asked⟩
          · rintro ⟨_, ⟨⟩, _, begun, asked⟩
            refine bind_eq_ok_iff.2 ⟨_, rfl, bind_eq_ok_iff.2 ⟨s, begun, ?_⟩⟩
            exact bind_eq_ok_iff.2 ⟨request, mapError_eq_ok_iff.2 asked, rfl⟩

end Line

theorem checkPaths_append_iff {ps qs : List Path} :
    checkPaths (ps ++ qs) = .ok () ↔ checkPaths ps = .ok () ∧ checkPaths qs = .ok () := by
  change forM (ps ++ qs) checkPath = _ ↔ _
  rw [List.forM_append, bind_eq_ok_iff]
  exact ⟨fun ⟨_, first, last⟩ => ⟨first, last⟩, fun ⟨first, last⟩ => ⟨_, first, last⟩⟩

namespace Request

/-- What an audit is asked for is checked before it starts. -/
theorem checkPaths_evidence {args : List String} {r : AuditRequest}
    (h : ofArguments .audit args = .ok (.audit r)) : checkPaths r.evidence.toList = .ok () := by
  obtain ⟨⟨options, others⟩, _, h⟩ := bind_eq_ok_iff.1 h
  dsimp only at h
  split at h
  · cases h
  · obtain ⟨_, checked, h⟩ := bind_eq_ok_iff.1 h
    obtain ⟨manifest, _, h⟩ := bind_eq_ok_iff.1 h
    cases h
    exact (checkPaths_append_iff.1 checked).1

/-- A coordinate and what is asked about it, as a command line says it. -/
def explainArguments (coordinate kind : String) (mode evidence : Option String) : List String :=
  coordinate :: "--kind" :: kind ::
    (mode.toList.flatMap (["--mode", ·]) ++ evidence.toList.flatMap (["--evidence", ·]))

theorem read_explain_value {name : String} {f : String → ExplainOption}
    (h : (name, f) ∈ explainOptions.values) (value : String) (rest : List String) :
    explainOptions.read (name :: value :: rest) =
      (explainOptions.read rest).map fun found => (f value :: found.1, found.2) := by
  simp only [explainOptions, List.mem_cons, Prod.mk.injEq, List.not_mem_nil, or_false] at h
  obtain ⟨rfl, rfl⟩ | ⟨rfl, rfl⟩ | ⟨rfl, rfl⟩ := h <;>
    exact Options.read_value (by decide) (by decide) rfl value rest

theorem read_explainArguments {coordinate kind : String} {mode evidence : Option String}
    (ends : coordinate ≠ "--") (argument : Options.isOption coordinate.toList = false) :
    explainOptions.read (explainArguments coordinate kind mode evidence) =
      .ok (.kind kind :: (mode.toList.map .mode ++ evidence.toList.map .evidence),
        [coordinate]) := by
  have kindRead := @read_explain_value "--kind" .kind (by simp [explainOptions])
  have modeRead := @read_explain_value "--mode" .mode (by simp [explainOptions])
  have evidenceRead := @read_explain_value "--evidence" .evidence (by simp [explainOptions])
  rw [explainArguments, Options.read_argument rfl ends argument, kindRead]
  cases mode <;> cases evidence <;> simp [modeRead, evidenceRead, Except.map, Options.read]

theorem ofArguments_explain {coordinate kind : String} {mode evidence : Option String}
    (ends : coordinate ≠ "--") (argument : Options.isOption coordinate.toList = false)
    (checked : checkPaths (evidence.map Path.ofString).toList = .ok ()) :
    ofArguments .explain (explainArguments coordinate kind mode evidence) =
      .ok (.explain ⟨coordinate, kind, evidence.map Path.ofString, mode⟩) := by
  rw [ofArguments, ofExplain, read_explainArguments ends argument]
  refine bind_eq_ok_iff.2 ⟨_, rfl, ?_⟩
  cases mode <;> cases evidence <;> exact bind_eq_ok_iff.2 ⟨(), checked, rfl⟩

end Request
end DependencyAudit.Command
