import DependencyAudit.Command.Run

/-!
What a run looks at around it: variables, files and the homes of users. Which
files these are hangs on the settings, and these on a file too, so the answers
are complete once that file is known.
-/

namespace DependencyAudit.Command

def variableNames : List String := ["HOME", "DEP_AUDITOR_CONFIG_FILE", "DEP_AUDITOR_EVIDENCE_FILE"]

/-- The number of the user that a process belongs to, in what the system says of it. -/
def userOf? (status : String) : Option String :=
  (Text.splitLines status.toList).findSome? fun line =>
    match (Text.splitAtEach '\t' line).map String.ofList with
    | "Uid:" :: number :: _ => some number
    | _ => none

/-- The home directories in a table of accounts: a line has seven fields, with
the name first, the number third and the home sixth. That of the given number is
found under the empty name too. -/
def homesOf (user : Option String) (accounts : String) : List (String × String) :=
  (Text.splitLines accounts.toList).flatMap fun line =>
    match (Text.splitAtEach ':' line).map String.ofList with
    | [name, _, number, _, _, home, _] =>
      (name, home) :: if user = some number then [("", home)] else []
    | _ => []

def evidencePaths (s : Session) (explicit : Option Path) : List Path :=
  match Settings.evidencePath s.env s.settings explicit with
  | .ok p => p.toList
  | .error _ => []

def requestPaths (s : Session) : Request → List Path
  | .audit r => r.manifest :: r.outputFile.toList ++ evidencePaths s r.evidence
  | .declarations manifest => [manifest]
  | .explain r => evidencePaths s r.evidence
  | .help => []

def settingsPaths (env : Environment) (args : List String) : List Path :=
  match split args with
  | .ok (general, _) => (Session.settingsPath env general).toOption.toList
  | .error _ => []

/-- The files that a run looks at, as far as the files known so far tell. -/
def consulted (env : Environment) (files : FileTree) (args : List String) : List Path :=
  settingsPaths env args ++
    match prepare env files args with
    | .ok (session, request) => requestPaths session request
    | .error _ => []

/-- The variables that paths name, as far as the files known so far tell. -/
def furtherVariables (env : Environment) (files : FileTree) (args : List String) : List String :=
  let setting :=
    match prepare env files args with
    | .ok (session, _) => session.settingText "evidence" "file" ""
    | .error _ => ""
  (setting :: env.bindings.map (·.2)).flatMap fun s => Environment.mentioned s.toList

end DependencyAudit.Command
