import DependencyAudit.Document.Literal
import DependencyAudit.Number.Reading
import DependencyAudit.Text.Blank
import DependencyAudit.Text.Lowercase

/-!
Tables that verdicts look names up in: fragments of the names of well-known
families, and sizes by fragment of an artifact's name. Settings add to the
families behind the built-in names and put sizes before the built-in ones.
-/

namespace DependencyAudit

def lowered (s : String) : String := String.ofList (Text.lower s.toList)

/-- A setting is looked for inside something that has no entries. -/
structure NoEntries where
  kind : String
deriving DecidableEq, Repr

def NoEntries.message (f : NoEntries) : String := s!"'{f.kind}' object has no attribute 'get'"

def Tree.asFields : Tree → Except NoEntries Fields
  | .table fields => .ok fields
  | t => .error ⟨t.kindName⟩

/-- The entries under a key; an absent key has none. -/
def Fields.part (key : String) (fields : Fields) : Except NoEntries Fields :=
  match fields.find? key with
  | none => .ok []
  | some t => t.asFields

structure Families where
  /-- Looked for in `group:artifact`. -/
  essential : List String
  /-- Looked for in the artifact, as are the frameworks. -/
  largeUtility : List String
  framework : List String
deriving DecidableEq, Repr

def Families.builtIn : Families where
  essential :=
    ["kotlin-stdlib", "kotlin-reflect", "androidx.core", "androidx.appcompat", "androidx.activity",
      "androidx.fragment", "androidx.lifecycle", "com.google.android.material",
      "androidx.compose.ui", "androidx.compose.runtime"]
  largeUtility :=
    ["guava", "commons-lang", "commons-collections", "commons-io", "commons-math", "commons-text",
      "joda-time", "vavr"]
  framework :=
    ["okhttp", "retrofit", "volley", "ktor-client", "dagger", "hilt", "koin", "guice", "room",
      "realm", "sqldelight", "greendao", "coroutines", "rxjava", "rxkotlin", "rxandroid"]

/-- Fragments that a setting gives: a text is one fragment, a list gives one for
each entry and a table one for each key, blank ones left out. -/
def fragments : Tree → Except LongInteger (List String)
  | .text s => .ok [lowered s]
  | .list items => if Tree.anyLong items then .error ⟨⟩ else .ok (named (items.map Tree.plain))
  | .table fields => .ok (named (Fields.keys fields))
  | _ => .ok []
where
  named (names : List String) : List String :=
    (names.filter fun s => !(Text.trim s.toList).isEmpty).map lowered

def fragmentsUnder (key : String) (fields : Fields) : Except LongInteger (List String) :=
  match fields.find? key with
  | none => .ok []
  | some t => fragments t

def entriesUnder (key : String) (fields : Fields) : Fields :=
  match fields.find? key with
  | some (.table entries) => entries
  | _ => []

def Families.ofEntries (configured : Fields) : Except LongInteger Families := do
  return {
    essential := builtIn.essential ++ (← fragmentsUnder "essential" configured)
    largeUtility := builtIn.largeUtility ++ (← fragmentsUnder "large_utility" configured)
    framework := builtIn.framework ++ (← fragmentsUnder "framework" configured) }

/-- Sizes in megabytes by fragment of an artifact's name; the first that occurs counts. -/
abbrev SizeTable := List (String × Float)

def SizeTable.builtIn : SizeTable :=
  [("tensorflow-lite", 9.2), ("play-services", 6.8), ("firebase", 5.6), ("exoplayer", 5.3),
    ("media3", 5.1), ("guava", 3.1), ("rxjava", 2.7), ("kotlin-stdlib", 1.7),
    ("jackson-databind", 1.6), ("kotlinx-coroutines", 1.4), ("material", 1.2), ("room", 0.9),
    ("okhttp", 0.8), ("commons-lang3", 0.6), ("gson", 0.3), ("dagger", 0.2), ("retrofit", 0.1),
    ("junit", 0.4)]

/-- The number that a setting stands for, if it stands for one. -/
def sizeOf? : Tree → Except TooLarge (Option Float)
  | .bool b => .ok (some (if b then 1 else 0))
  | .int n => (Number.int n).toFloat.map some
  | .float x => .ok (some x)
  | .text s => .ok (Reading.float? s.toList)
  | _ => .ok none

/-- Entries that are no number, or a negative one, are left out. -/
def SizeTable.ofEntries : Fields → Except TooLarge SizeTable
  | [] => .ok []
  | (fragment, value) :: rest => do
    let size ← sizeOf? value
    let others ← ofEntries rest
    match size with
    | some x => return if 0 ≤ x then (lowered fragment, x) :: others else others
    | none => return others

inductive SettingsFault
  | noEntries (f : NoEntries)
  | longInteger (f : LongInteger)
  | tooLarge (f : TooLarge)
deriving DecidableEq, Repr

def SettingsFault.message : SettingsFault → String
  | noEntries f => f.message
  | longInteger f => f.message
  | tooLarge f => f.message

def Families.ofSettings (settings : Fields) : Except SettingsFault Families := do
  let classification ← (settings.part "classification").mapError .noEntries
  (ofEntries (entriesUnder "families" classification)).mapError .longInteger

def SizeTable.ofSettings (settings : Fields) : Except SettingsFault SizeTable := do
  let classification ← (settings.part "classification").mapError .noEntries
  let extra ← (ofEntries (entriesUnder "sizes" classification)).mapError .tooLarge
  return extra ++ builtIn

structure Tables where
  families : Families
  sizes : SizeTable

def Tables.builtIn : Tables := ⟨.builtIn, .builtIn⟩

def Tables.ofSettings (settings : Fields) : Except SettingsFault Tables := do
  let families ← Families.ofSettings settings
  return ⟨families, ← SizeTable.ofSettings settings⟩

end DependencyAudit
