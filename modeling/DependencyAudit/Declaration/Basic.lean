/-!
Dependency declarations: a coordinate, where it is declared and for what use.
-/

namespace DependencyAudit

/-- The use that a build script declares a dependency for. -/
inductive Kind
  | implementation
  | api
  | test
  | debug
  | annotationProcessor
deriving DecidableEq, Repr

namespace Kind

def all : List Kind := [implementation, api, test, debug, annotationProcessor]

def name : Kind → String
  | implementation => "implementation"
  | api => "api"
  | test => "test"
  | debug => "debug"
  | annotationProcessor => "annotationProcessor"

def ofName? (s : String) : Option Kind := all.find? (·.name == s)

theorem ofName?_name (k : Kind) : ofName? k.name = some k := by
  cases k <;> decide

end Kind

structure Coordinate where
  group : String
  artifact : String
  version : String
deriving DecidableEq, Repr

def Coordinate.text (c : Coordinate) : String :=
  c.group ++ ":" ++ c.artifact ++ ":" ++ c.version

/-- Lines count from one; `source` is the line without the white space around it. -/
structure Declaration where
  coordinate : Coordinate
  line : Int
  source : String
  kind : Kind
deriving DecidableEq, Repr

end DependencyAudit
