import DependencyAudit.Declaration.Reading
import DependencyAudit.Files.Tree

/-!
Build scripts on disk.
-/

namespace DependencyAudit

inductive ScriptCause
  | notFound
  | unusable (f : FileFault)
  | unreadable (f : ReadFault)
deriving DecidableEq, Repr

structure ScriptFault where
  cause : ScriptCause
  path : Path
deriving DecidableEq, Repr

def ScriptFault.message (f : ScriptFault) : String :=
  match f.cause with
  | .notFound => s!"Manifest not found: {f.path.text}"
  | .unusable f => f.message
  | .unreadable r => s!"Unable to read manifest {f.path.text}: {r.message}"

def FileTree.readScript (tree : FileTree) (env : Environment) (p : Path) :
    Except ScriptFault (List String) :=
  match tree.find env p, tree.readText env p with
  | .error f, _ => .error ⟨.unusable f, p⟩
  | .ok (some (.file _)), .ok text => .ok ((Text.splitLines text).map String.ofList)
  | .ok (some (.file _)), .error r => .error ⟨.unreadable r, p⟩
  | .ok _, _ => .error ⟨.notFound, p⟩

end DependencyAudit
