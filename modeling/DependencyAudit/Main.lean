import DependencyAudit.Command.Surroundings

/-!
The program: it gathers what a run looks at, runs, and leaves what the run made.
-/

namespace DependencyAudit

def readVariables (names : List String) : IO (List (String × String)) :=
  names.filterMapM fun name => return (← IO.getEnv name).map (name, ·)

def withVariables (env : Environment) (names : List String) : IO Environment :=
  return { env with bindings := env.bindings ++ (← readVariables names) }

def readHomes : IO (List (String × String)) := do
  let status ← IO.FS.readFile "/proc/self/status" <|> return ""
  let accounts ← IO.FS.readFile "/etc/passwd" <|> return ""
  return Command.homesOf (Command.userOf? status) accounts

def readEnvironment : IO Environment := do
  let directory := Path.ofString (← IO.currentDir).toString
  withVariables { bindings := [], directory := directory.parts, homes := ← readHomes }
    Command.variableNames

def placeText (place : List String) : String := "/" ++ "/".intercalate place

def withPlace (files : FileTree) (place : List String) : IO FileTree := do
  if (files.node? place).isSome then return files
  if ← ((← IO.currentDir) / placeText place).isDir then return files.put place .directory
  match ← (IO.FS.readBinFile (placeText place)).toBaseIO with
  | .ok content => return files.put place (.file content.toList)
  | .error _ => return files

def withPaths (env : Environment) (files : FileTree) (paths : List Path) : IO FileTree :=
  (paths.flatMap (FileTree.places env)).foldlM withPlace files

/-- Once for the settings, and again for what they name. -/
def surroundings (args : List String) : IO (Environment × FileTree) := do
  let env ← readEnvironment
  let env ← withVariables env (Command.furtherVariables env [] args)
  let files ← withPaths env [] (Command.consulted env [] args)
  let env ← withVariables env (Command.furtherVariables env files args)
  return (env, ← withPaths env files (Command.consulted env files args))

def store (changes : FileTree) : IO Unit :=
  changes.forM fun (place, node) =>
    match node with
    | .directory => IO.FS.createDirAll (placeText place)
    | .file content => IO.FS.writeBinFile (placeText place) ⟨content.toArray⟩

def reportEnding : Command.Ending → IO Unit
  | .exit _ => return ()
  | .usage f => IO.eprintln s!"Error: {f.message}"
  | .crash c => IO.eprintln s!"Error: {c.message}"

def runProgram (args : List String) : IO UInt32 := do
  let (env, files) ← surroundings args
  let outcome := Command.run env files args
  store (files.changes outcome.files)
  IO.print outcome.output
  reportEnding outcome.ending
  return outcome.ending.code.toUInt32

end DependencyAudit

def main (args : List String) : IO UInt32 := DependencyAudit.runProgram args
