import DependencyAudit.Declaration.Basic
import DependencyAudit.Text.Lowercase
import DependencyAudit.Text.Search

/-!
Keywords that introduce a declaration, and the kind that a whole line reads as.
The two are separate: a line is read by the first marker that occurs anywhere in
it, whichever keyword stands before the coordinate.
-/

namespace DependencyAudit.Kind

/-- Tests and debug builds have a keyword for each way to be on a class path. -/
def paths : List String := ["Implementation", "Api", "CompileOnly", "RuntimeOnly"]

def testKeywords : List String :=
  ["android", ""].flatMap fun platform =>
    ["test", "Test"].flatMap fun word =>
      ["Fixtures", ""].flatMap fun part =>
        paths.map fun path => platform ++ word ++ part ++ path

def keywords : Kind → List String
  | implementation => ["implementation"]
  | api => ["api"]
  | test => testKeywords
  | debug => paths.map ("debug" ++ ·)
  | annotationProcessor => ["annotationProcessor", "kapt", "ksp"]

/-- Markers in lower case, the kind of higher precedence first. -/
def markers : List (Kind × List String) :=
  [(test, ["test"]), (debug, ["debug"]),
    (annotationProcessor, ["annotationprocessor", "kapt", "ksp"]),
    (api, ["api(", "api (", "api '", "api \""])]

def marked (lowered : List Char) (words : List String) : Bool :=
  words.any fun w => Text.occursIn w.toList lowered

def ofLine (line : List Char) : Kind :=
  let lowered := Text.lower line
  match markers.find? fun m => marked lowered m.2 with
  | some m => m.1
  | none => implementation

end DependencyAudit.Kind
