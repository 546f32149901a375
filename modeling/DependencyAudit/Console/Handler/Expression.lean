import DependencyAudit.Console.Handler.Token

/-!
What the arguments that a tag hands over are made of, as far as it matters whether
they are literals: constants, and tuples, sets and tables of them. A sign before a
number is part of it, and so is a sum with an imaginary part.
-/

namespace DependencyAudit.Console.Handler

inductive Expression
  | number (imaginary : Bool)
  | text
  | template
  | constant (s : String)
  | ellipsis
  | name (s : String)
  | group (e : Expression)
  | tuple (items : List Expression)
  | set (items : List Expression)
  /-- Pairs; what stands behind two stars has no key. -/
  | table (pairs : List (Option Expression × Expression))
  | emptySet
  | starred (e : Expression)
  | member
  | signed (e : Expression)
  | sum (first second : Expression)
  /-- A comparison by its first operand; it may ask for membership. -/
  | compared (first : Expression) (membership : Bool)
  /-- Something else; what is loose binds less than arithmetic. -/
  | other (kind : String) (loose : Bool)

namespace Expression

def kind : Expression → String
  | number _ => "literal"
  | text => "literal"
  | template => "f-string expression"
  | constant s => s
  | ellipsis => "ellipsis"
  | name _ => "name"
  | group e => e.kind
  | tuple _ => "tuple"
  | set _ => "set display"
  | table _ => "dict literal"
  | emptySet => "function call"
  | starred _ => "starred"
  | member => "attribute"
  | signed _ => "expression"
  | sum _ _ => "expression"
  | compared _ _ => "comparison"
  | other k _ => k

def isLoose : Expression → Bool
  | compared _ _ => true
  | other _ loose => loose
  | _ => false

/-- Words that used to print without brackets, or to run something. -/
def isOldCommand : Expression → Bool
  | name s => s = "print" || s = "exec"
  | group e => e.isOldCommand
  | _ => false

mutual

/-- What a loop cannot set of a target. -/
def loopFault? : Expression → Option Expression
  | name _ => none
  | member => none
  | group e => loopFault? e
  | starred e => loopFault? e
  | tuple items => loopFaults? items
  | compared first membership => if membership then loopFault? first else none
  | e => some e

def loopFaults? : List Expression → Option Expression
  | [] => none
  | e :: rest => (loopFault? e).or (loopFaults? rest)

end

def number? : Expression → Option Bool
  | number imaginary => some imaginary
  | group e => e.number?
  | _ => none

def signedNumber? : Expression → Option Bool
  | signed e => e.number?
  | group e => e.signedNumber?
  | e => e.number?

mutual

/-- What keeps a value out of a set, if anything does. -/
def unhashable? : Expression → Option String
  | set _ => some "set"
  | emptySet => some "set"
  | table _ => some "dict"
  | group e => unhashable? e
  | tuple items => anyUnhashable? items
  | _ => none

def anyUnhashable? : List Expression → Option String
  | [] => none
  | e :: rest => (unhashable? e).or (anyUnhashable? rest)

end

def checkHash (e : Expression) : Except Fault Unit :=
  match unhashable? e with
  | some kind => .error (.unhashable kind)
  | none => .ok ()

mutual

def check : Expression → Except Fault Unit
  | number _ => .ok ()
  | text => .ok ()
  | constant _ => .ok ()
  | ellipsis => .ok ()
  | emptySet => .ok ()
  | group e => check e
  | tuple items => checkItems items
  | set items => checkMembers items
  | table pairs => checkPairs pairs
  | signed e => if e.number?.isSome then .ok () else .error .notLiteral
  | sum first second =>
    if first.signedNumber? = some false && second.number? = some true then .ok ()
    else .error .notLiteral
  | _ => .error .notLiteral

def checkItems : List Expression → Except Fault Unit
  | [] => .ok ()
  | e :: rest => do
    check e
    checkItems rest

def checkMembers : List Expression → Except Fault Unit
  | [] => .ok ()
  | e :: rest => do
    check e
    checkHash e
    checkMembers rest

def checkPairs : List (Option Expression × Expression) → Except Fault Unit
  | [] => .ok ()
  | (none, _) :: _ => .error .noKey
  | (some key, value) :: rest => do
    check key
    check value
    checkHash key
    checkPairs rest

end

end Expression
end DependencyAudit.Console.Handler
