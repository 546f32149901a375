import DependencyAudit.Toml.Text

/-!
Reading a TOML document. Besides its entries the reader keeps which tables were
declared by a header or opened by a dotted key, and which values are closed to
further entries because they were written out in full.
-/

namespace DependencyAudit.Toml

abbrev Key := List String

/-- Makes the tables on the way to a key and changes the last. The way leads
through the last table of a list. -/
def inNest (throughLists : Bool) (change : Fields → Option Fields) : Key → Fields → Option Fields
  | [], fields => change fields
  | part :: rest, fields =>
    match Fields.find? part fields with
    | none => do return Fields.put part (.table (← inNest throughLists change rest [])) fields
    | some (.table inner) => do
      return Fields.put part (.table (← inNest throughLists change rest inner)) fields
    | some (.list items) =>
      match throughLists, items.getLast? with
      | true, some (.table inner) => do
        let inner ← inNest throughLists change rest inner
        return Fields.put part (.list (items.dropLast ++ [.table inner])) fields
      | _, _ => none
    | some _ => none

def addEntry (key : String) (value : Tree) (fields : Fields) : Option Fields :=
  match Fields.find? key fields with
  | none => some (Fields.put key value fields)
  | some _ => none

def addToList (key : String) (fields : Fields) : Option Fields :=
  match Fields.find? key fields with
  | none => some (Fields.put key (.list [.table []]) fields)
  | some (.list items) => some (Fields.put key (.list (items ++ [.table []])) fields)
  | some _ => none

def isContainer : Tree → Bool
  | .scalar _ => false
  | _ => true

/-! ## Values -/

def skipBlankLines : Nat → List Char → Except Fault (List Char)
  | 0, s => .ok s
  | fuel + 1, s =>
    match s.dropWhile isSpaceOrNewline with
    | '#' :: r => do skipBlankLines fuel (← skipComment ('#' :: r))
    | r => .ok r

def skipToItem (s : List Char) : Except Fault (List Char) := skipBlankLines s.length s

/-- An inline table as read so far, and the keys in it that are closed. -/
structure Inline where
  fields : Fields
  closed : List Key

def Inline.add (t : Inline) (key : Key) (value : Tree) : Option Inline := do
  if t.closed.any fun k => k.isPrefixOf key then none
  else
    let fields ← inNest false (addEntry (key.getLast?.getD "") value) key.dropLast t.fields
    return ⟨fields, if isContainer value then key :: t.closed else t.closed⟩

/-! Values may be nested as long as there is room. -/

/-- What an interpreter whose stack holds 1000 calls has left where the settings are read: a
property of the place where the program runs, and none of the format. -/
def nestingRoom : Nat := 985

def listRoom : Nat := 2

def tableRoom : Nat := 3

mutual

def value (room : Nat) : Nat → List Char → Except Fault (Tree × List Char)
  | 0, s => fail .nesting s
  | fuel + 1, s =>
    match s with
    | '[' :: r => do
      if room < listRoom then fail .nesting s
      else
        match ← skipToItem r with
        | ']' :: r => return (.list [], r)
        | r =>
          let (items, r) ← itemsFrom (room - listRoom) fuel r
          return (.list items, r)
    | '\x7b' :: r =>
      if room < tableRoom then fail .nesting s
      else
        match skipSpace r with
        | '\x7d' :: r => .ok (.table [], r)
        | r => do
          let (t, r) ← entriesFrom (room - tableRoom) fuel ⟨[], []⟩ r
          return (.table t.fields, r)
    | _ => (scalar s).map fun (v, r) => (.scalar v, r)

/-- Items up to the closing bracket, which a comma may precede. -/
def itemsFrom (room : Nat) : Nat → List Char → Except Fault (List Tree × List Char)
  | 0, s => fail .nesting s
  | fuel + 1, s => do
    let (item, r) ← value room fuel s
    match ← skipToItem r with
    | ']' :: r => return ([item], r)
    | ',' :: r =>
      match ← skipToItem r with
      | ']' :: r => return ([item], r)
      | r =>
        let (items, r) ← itemsFrom room fuel r
        return (item :: items, r)
    | r => fail .unclosedList r

def entriesFrom (room : Nat) : Nat → Inline → List Char → Except Fault (Inline × List Char)
  | 0, _, s => fail .nesting s
  | fuel + 1, t, s => do
    let (key, r) ← key s
    match r with
    | '=' :: r =>
      let (v, r) ← value room fuel (skipSpace r)
      match t.add key v with
      | none => fail .redefined s
      | some t =>
        match skipSpace r with
        | '\x7d' :: r => return (t, r)
        | ',' :: r => entriesFrom room fuel t (skipSpace r)
        | r => fail .unclosedTable r
    | r => fail .equals r

end

/-! ## Statements -/

structure State where
  fields : Fields
  header : Key
  /-- Declared tables: no other header may declare them, no dotted key may enter them. -/
  declared : List Key
  /-- Tables that dotted keys entered; they count as declared from the next header on. -/
  entered : List Key
  /-- Values written out in full, with everything below them. -/
  closed : List Key

def State.start : State := ⟨[], [], [], [], []⟩

def State.isClosed (st : State) (key : Key) : Bool :=
  st.closed.any fun k => k.isPrefixOf key

def State.settle (st : State) : State :=
  { st with declared := st.entered ++ st.declared, entered := [] }

def State.declareTable (st : State) (key : Key) : Option State := do
  if st.declared.contains key || st.isClosed key then none
  else
    let fields ← inNest true some key st.fields
    return { st with fields, header := key, declared := key :: st.declared }

/-- Everything below a list of tables may be declared anew for its next table. -/
def State.declareListItem (st : State) (key : Key) : Option State := do
  if st.isClosed key then none
  else
    let fields ← inNest true (addToList (key.getLast?.getD "")) key.dropLast st.fields
    let outside (k : Key) : Bool := !key.isPrefixOf k
    return { st with
      fields
      header := key
      declared := key :: st.declared.filter outside
      closed := st.closed.filter outside }

def passed (header key : Key) : List Key :=
  (List.range key.length).filterMap fun i =>
    if i = 0 then none else some (header ++ key.take i)

def State.addEntry (st : State) (key : Key) (value : Tree) : Option State := do
  let way := passed st.header key
  if way.any st.declared.contains || st.isClosed (st.header ++ key.dropLast) then none
  else
    let fields ←
      inNest true (Toml.addEntry (key.getLast?.getD "") value) (st.header ++ key.dropLast) st.fields
    return { st with
      fields
      entered := way ++ st.entered
      closed := if isContainer value then (st.header ++ key) :: st.closed else st.closed }

def orRedefined (s : List Char) : Option State → Except Fault State
  | some st => .ok st
  | none => fail .redefined s

def headerStatement (st : State) (s : List Char) : Except Fault (State × List Char) := do
  let (key, r) ← key (skipSpace s)
  let st ← orRedefined s (st.settle.declareTable key)
  match r with
  | ']' :: r => return (st, r)
  | r => fail .unclosedHeader r

def listStatement (st : State) (s : List Char) : Except Fault (State × List Char) := do
  let (key, r) ← key (skipSpace s)
  let st ← orRedefined s (st.settle.declareListItem key)
  match r with
  | ']' :: ']' :: r => return (st, r)
  | r => fail .unclosedHeader r

def entryStatement (st : State) (s : List Char) : Except Fault (State × List Char) := do
  let (key, r) ← key s
  match r with
  | '=' :: r =>
    let (v, r) ← value nestingRoom (r.length + 1) (skipSpace r)
    return (← orRedefined s (st.addEntry key v), r)
  | r => fail .equals r

def statement (st : State) (s : List Char) : Except Fault (State × List Char) :=
  match s with
  | '[' :: '[' :: r => listStatement st r
  | '[' :: r => headerStatement st r
  | '#' :: _ => .ok (st, s)
  | c :: _ =>
    if isBareKeyChar c || c == '"' || c == '\'' then entryStatement st s else fail .statement s
  | [] => .ok (st, [])

def statements : Nat → State → List Char → Except Fault State
  | 0, _, s => fail .nesting s
  | fuel + 1, st, s =>
    match skipSpace s with
    | [] => .ok st
    | '\n' :: r => statements fuel st r
    | s => do
      let (st, r) ← statement st s
      match ← skipComment (skipSpace r) with
      | [] => return st
      | '\n' :: r => statements fuel st r
      | r => fail .lineEnd r

def read (text : List Char) : Except Fault Fields :=
  (statements (text.length + 1) .start text).map (·.fields)

end DependencyAudit.Toml
