import DependencyAudit.Console.Handler.Reader

/-!
The grammar of the arguments that a tag hands over. Where a text cannot be read, it is
read once more in search of common mistakes. A choice is made for the first reader that
matches, so the order of the readers is part of the grammar. Every definition has
fuel for the depth that is left.
-/

namespace DependencyAudit.Console.Handler.Grammar

open Reader

def arithmeticSigns : List String := ["|", "^", "&", "<<", ">>"]

def productSigns : List String := ["*", "/", "//", "%", "@"]

def comparisonSigns : List String := ["==", "!=", "<=", "<", ">=", ">"]

/-- A sign or words that compare, and whether they ask for membership. -/
def comparison (m : Mode) : Reader Bool :=
  (do let _ ← oneOf m comparisonSigns; return false)
  <|> (do word m "not"; word m "in"; return false)
  <|> (do word m "in"; return true)
  <|> (do word m "is"; word m "not"; return false)
  <|> (do word m "is"; return false)

def joined (first : Expression) (rest : List Expression) (loose : Bool) : Expression :=
  if rest.isEmpty then first else .other "expression" loose

/-- Whether what stands behind a word is never taken for a second expression: behind
words that start statements in some places, and for a text behind a name. -/
def isApart : List Token → Bool
  | .name s :: t :: _ => softKeywords.contains s || (isName (.name s) && t matches .text _ _)
  | .name s :: _ => softKeywords.contains s
  | _ => false

def isLoopTarget (e : Expression) : Bool :=
  match e.loopFault? with
  | some _ => false
  | none => true

mutual

def atom (m : Mode) : Nat → Reader Expression
  | 0 => failure
  | n + 1 => do
    match ← next? m with
    | some (.number imaginary digits) =>
      if Reading.digitLimit < digits then fault (.tooLong digits)
      else do
        drop
        return .number imaginary
    | some (.text _ _) => texts m n
    | some (.name s) =>
      if keywords.contains s then failure
      else do
        drop
        return if constants.contains s then .constant s else .name s
    | some (.mark "...") => do
      drop
      return .ellipsis
    | some (.opening '(') => do
      drop
      round m.inBracket n
    | some (.opening _) => do
      drop
      curly m.inBracket n
    | _ => failure

def round (m : Mode) : Nat → Reader Expression
  | 0 => failure
  | n + 1 => (do closing m; return .tuple []) <|> do
    let start ← get
    match ← possibly (member m n) with
    | some first =>
      (do
        mark m ","
        let rest ← members m n
        closing m
        return .tuple (first :: rest))
      <|> (match first with
        | .starred _ => do
          set start
          starred m n
        | _ =>
          (do closing m; return .group first)
          <|> (do loops m n; closing m; return .other "generator expression" false))
    | none =>
      (do
        let e ← yielded m n
        closing m
        return .group e)
      <|> starred m n

/-- Stars are out of place right behind a round bracket, except in a tuple. -/
def starred (m : Mode) : Nat → Reader Expression
  | 0 => failure
  | n + 1 => do
    if m.searching then
      let _ ← ahead? do
        mark m "*"
        let _ ← expression m n <|> fault .star
        closing m
        (fault .starHere : Reader Unit)
      let _ ← ahead? do
        mark m "**"
        let _ ← expression m n
        closing m
        (fault .doubleStarHere : Reader Unit)
      starLoop m n
    failure

def starLoop (m : Mode) : Nat → Reader Unit
  | 0 => failure
  | n + 1 => do
    mark m "*"
    let _ ← expression m n <|> fault .star
    loops m n
    fault .starInLoop

def memberLoop (m : Mode) : Nat → Reader Unit
  | 0 => failure
  | n + 1 => do
    let _ ← member m n
    mark m ","
    let _ ← members m n
    loops m n
    fault .loopTarget

def yielded (m : Mode) : Nat → Reader Expression
  | 0 => failure
  | n + 1 => do
    word m "yield"
    let _ ← (do word m "from"; let _ ← expression m n) <|> (do let _ ← expressions m n) <|> pure ()
    return .other "yield expression" true

/-- What stands behind a curly bracket: a table, a set or a loop for one of them. -/
def curly (m : Mode) : Nat → Reader Expression
  | 0 => failure
  | n + 1 => (do closing m; return .table []) <|> do
    let start ← get
    if ← isAhead (mark m "*") then setFrom m start none n
    else if ← isAhead (mark m "**") then tableFrom m start none n
    else
      let key ← expression m n
      if ← isAhead (mark m ":") then tableFrom m start (some key) n
      else setFrom m start (some key) n

def tableFrom (m : Mode) (start : List Token) (key : Option Expression) : Nat → Reader Expression
  | 0 => failure
  | n + 1 => do
    let behindKey ← get
    let first? ← possibly do
      match key with
      | some k => do
        mark m ":"
        return (some k, ← expression m n)
      | none => pair m n
    match first? with
    | some first => do
      let rest ← many (do mark m ","; pair m n) n
      (do
        let _ ← possibly (mark m ",")
        closing m
        return .table (first :: rest))
      <|> (do
        mark m ","
        let _ ← expression m n
        if !(← isAhead (mark m ":")) then fault .colonExpected
        valueFault m n)
      <|> (do
        loops m n
        closing m
        return .other "dict comprehension" false)
      <|> (if m.searching && key.isNone then do
          set start
          mark m "**"
          let _ ← arithmetic m n
          loops m n
          closing m
          fault .doubleStarInLoop
        else failure)
    | none => do
      set behindKey
      valueFault m n

/-- A key and a colon want a value. -/
def valueFault (m : Mode) : Nat → Reader Expression
  | 0 => failure
  | n + 1 => do
    mark m ":"
    if ← isAhead (do mark m "*"; let _ ← arithmetic m n) then fault .starredValue
    if ← isAhead (closing m <|> mark m ",") then fault .valueExpected
    failure

def pair (m : Mode) : Nat → Reader (Option Expression × Expression)
  | 0 => failure
  | n + 1 =>
    (do
      mark m "**"
      return (none, ← arithmetic m n))
    <|> (do
      let key ← expression m n
      mark m ":"
      return (some key, ← expression m n))

/-- A set, perhaps with the expression at its start behind the reader. -/
def setFrom (m : Mode) (start : List Token) (found : Option Expression) : Nat → Reader Expression
  | 0 => failure
  | n + 1 => do
    let first? ← possibly do
      match found with
      | some e => namedFrom m start e n
      | none => member m n
    match first? with
    | some first => do
      let rest ← many (do mark m ","; member m n) n
      (do
        let _ ← possibly (mark m ",")
        closing m
        return .set (first :: rest))
      <|> (if rest.isEmpty && !(first matches .starred _) then do
          loops m n
          closing m
          return .other "set comprehension" false
        else failure)
      <|> (do
        set start
        searching m (starLoop m n)
        searching m (memberLoop m n)
        failure)
    | none =>
      set start
      searching m (starLoop m n)
      failure

def member (m : Mode) : Nat → Reader Expression
  | 0 => failure
  | n + 1 =>
    (do
      mark m "*"
      return .starred (← arithmetic m n))
    <|> named m n

def members (m : Mode) : Nat → Reader (List Expression)
  | 0 => failure
  | n + 1 => do
    match ← possibly (member m n) with
    | none => return []
    | some first =>
      let rest ← many (do mark m ","; member m n) n
      let _ ← possibly (mark m ",")
      return first :: rest

/-- An expression, perhaps with a name for it. -/
def named (m : Mode) : Nat → Reader Expression
  | 0 => failure
  | n + 1 => do
    let start ← get
    if ← isAhead (do let _ ← name m; mark m ":=") then
      drop
      drop
      let _ ← expression m n
      return .other "named expression" true
    else
      namedFrom m start (← expression m n) n

/-- An expression is read. It has no name; what looks like one is a mistake. -/
def namedFrom (m : Mode) (start : List Token) (e : Expression) : Nat → Reader Expression
  | 0 => failure
  | n + 1 => do
    match start with
    | t :: .mark ":=" :: _ =>
      if isName t then
        set start
        named m n
      else unnamed m start e n
    | _ => unnamed m start e n

def unnamed (m : Mode) (start : List Token) (e : Expression) : Nat → Reader Expression
  | 0 => failure
  | n + 1 => do
    searching m do
      if ← isAhead (do mark m ":="; let _ ← expression m n) then
        fault (.namedAssignment e.kind)
      mark m "="
      let isName := e matches .name _
      if !isName then
        if e.isLoose || e matches .constant _ then failure
        match ← ahead? (do set start; atom m.plain n) with
        | some (.tuple _) => failure
        | some (.other "generator expression" _) => failure
        | _ => pure ()
      let _ ← arithmetic m n
      if ← isAhead (mark m "=" <|> mark m ":=") then failure
      fault (if isName then .equals else .assignment e.kind)
    if ← isAhead (mark m ":=") then failure
    return e

/-- A choice, an anonymous function or what is made of truth values. -/
def expression (m : Mode) : Nat → Reader Expression
  | 0 => failure
  | n + 1 =>
    (do
      let start ← get
      choice m start (← truth m n) n)
    <|> anonymous m n

def choice (m : Mode) (start : List Token) (e : Expression) : Nat → Reader Expression
  | 0 => failure
  | n + 1 => do
    let apart := isApart start
    searching m do
      if apart then failure
      let _ ← expression m.plain n
      if m.inside && !e.isOldCommand then fault .forgottenComma
    let behind ← get
    let condition? ← possibly (do word m "if"; truth m n)
    let isComplete ← isAhead (word m "else")
    if m.searching && condition?.isSome && !isComplete then
      if !(← isAhead (mark m ":")) then fault .elseExpected
    searching m (oldCommand m start apart n)
    if condition?.isSome && isComplete then
      (do
        word m "else"
        let _ ← expression m n
        return .other "conditional expression" true)
      <|> (do
        set behind
        return e)
    else
      set behind
      return e

/-- A command that is none without brackets. -/
def oldCommand (m : Mode) (start : List Token) (apart : Bool) : Nat → Reader Unit
  | 0 => failure
  | n + 1 => do
    set start
    let command ← name m
    if ← isAhead (accept m (· = .opening '(')) then failure
    let _ ← expressionsFrom m (if apart then m else m.plain) n
    if (Expression.name command).isOldCommand then fault (.callExpected command)

def anonymous (m : Mode) : Nat → Reader Expression
  | 0 => failure
  | n + 1 => do
    word m "lambda"
    parameters m n
    mark m ":"
    let _ ← expression m n
    return .other "lambda" true

def parameters (m : Mode) : Nat → Reader Unit
  | 0 => failure
  | n + 1 => do
    searching m do
      accept m (· = .opening '(')
      let _ ← name m.inBracket
      let _ ← many (do mark m.inBracket ","; name m.inBracket) n
      let _ ← possibly (mark m.inBracket ",")
      closing m
      fault .bracketsOfParameters
    let parameter : Reader Unit := do
      let _ ← possibly (mark m "*" <|> mark m "**")
      let _ ← name m
      let _ ← possibly (do mark m "="; let _ ← expression m n)
    let _ ← possibly do
      parameter
      let _ ← many (do mark m ","; parameter) n
      let _ ← possibly (mark m ",")

def expressions (m : Mode) : Nat → Reader Expression
  | 0 => failure
  | n + 1 => expressionsFrom m m n

/-- Expressions; the start of the first one is read in a mode of its own. -/
def expressionsFrom (m first : Mode) : Nat → Reader Expression
  | 0 => failure
  | n + 1 => do
    let start ← get
    let starred : Reader Expression := do
      mark m "*"
      return .starred (← arithmetic m n)
    let first ← starred <|> (do choice m start (← truth first n) n) <|> anonymous m n
    let rest ← many (do mark m ","; starred <|> expression m n) n
    let comma ← possibly (mark m ",")
    return if rest.isEmpty && comma.isNone then first else .tuple (first :: rest)

def truth (m : Mode) : Nat → Reader Expression
  | 0 => failure
  | n + 1 => do
    let first ← negation m n
    let rest ← many (do word m "and" <|> word m "or"; negation m n) n
    return joined first rest true

/-- A condition: operands that are compared, perhaps turned around. -/
def negation (m : Mode) : Nat → Reader Expression
  | 0 => failure
  | n + 1 =>
    (do
      word m "not"
      let _ ← negation m n
      return .other "expression" true)
    <|> (do
      let first ← arithmetic m n
      let compared : Reader Bool := do
        let membership ← comparison m
        let _ ← arithmetic m n
        return membership
      let rest ← many compared n
      return match rest with
        | [] => first
        | membership :: _ => .compared first membership)

/-- Sums with signs between them. The signs have no order of their own here. -/
def arithmetic (m : Mode) : Nat → Reader Expression
  | 0 => failure
  | n + 1 => do
    let first ← sums m n
    let rest ← many (do let _ ← oneOf m arithmeticSigns; sums m n) n
    return joined first rest false

def sums (m : Mode) : Nat → Reader Expression
  | 0 => failure
  | n + 1 => do
    let first ← product m n
    let rest ← many (do let _ ← oneOf m ["+", "-"]; product m n) n
    return rest.foldl .sum first

def product (m : Mode) : Nat → Reader Expression
  | 0 => failure
  | n + 1 => do
    let first ← factor m n
    let rest ← many (do let _ ← oneOf m productSigns; factor m n) n
    return joined first rest false

def factor (m : Mode) : Nat → Reader Expression
  | 0 => failure
  | n + 1 =>
    (do
      let sign ← oneOf m ["+", "-", "~"]
      let e ← factor m n
      return if sign = "~" then .other "expression" false else .signed e)
    <|> (do
      let first ← (do
          word m "await"
          let _ ← primary m n
          return .other "await expression" false)
        <|> primary m n
      match ← possibly (do mark m "**"; factor m n) with
      | some _ => return .other "expression" false
      | none => return first)

def primary (m : Mode) : Nat → Reader Expression
  | 0 => failure
  | n + 1 => do trailers m (← atom m n) n

def trailers (m : Mode) (e : Expression) : Nat → Reader Expression
  | 0 => return e
  | n + 1 =>
    (do
      mark m "."
      let _ ← name m
      trailers m .member n)
    <|> (do
      accept m (· = .opening '(')
      trailers m (← call m.inBracket e n) n)
    <|> (do
      searching m do
        accept m (· = .opening '\x7b')
        let _ ← ahead? (starLoop m.inBracket n)
        memberLoop m.inBracket n
      return e)

def call (m : Mode) (e : Expression) : Nat → Reader Expression
  | 0 => failure
  | n + 1 => do
    let called : Expression := .other "function call" false
    searching m (starLoop m n)
    let first? ← possibly (argument m n)
    (do
      if first? != some true then failure
      loops m n
      closing m
      return called)
    <|> (do
      if first?.isSome then
        let _ ← many (do mark m ","; argument m n) n
        let _ ← possibly (mark m ",")
      closing m
      return match first?, e with
        | none, .name "set" => .emptySet
        | _, _ => called)

/-- An argument of a call, and whether a loop may follow it. -/
def argument (m : Mode) : Nat → Reader Bool
  | 0 => failure
  | n + 1 =>
    (do
      let _ ← mark m "*" <|> mark m "**"
      let _ ← expression m n
      return false)
    <|> (do
      let _ ← name m
      let isNamed := (← possibly (mark m ":=")).isSome
      if !isNamed then mark m "="
      let _ ← expression m n
      return isNamed)
    <|> (do
      let e ← expression m n
      if ← isAhead (mark m "=") then
        if m.searching then
          match e with
          | .constant s => fault (.constantAssignment s)
          | .name _ => failure
          | _ => fault .argumentAssignment
        failure
      return true)

def loops (m : Mode) : Nat → Reader Unit
  | 0 => failure
  | n + 1 => do
    loop m n
    let _ ← many (loop m n) n

def loop (m : Mode) : Nat → Reader Unit
  | 0 => failure
  | n + 1 => do
    let _ ← possibly (word m "async")
    word m "for"
    let start ← get
    match ← possibly (do targets m.plain n; word m "in") with
    | some () => do
      let _ ← truth m n
      let _ ← many (do word m "if"; let _ ← truth m n) n
    | none =>
      if m.searching then
        set start
        match (← expressions m n).loopFault? with
        | some e => fault (.loopAssignment e.kind)
        | none => failure
      else failure

def targets (m : Mode) : Nat → Reader Unit
  | 0 => failure
  | n + 1 => do
    let target : Reader Unit := do
      let _ ← possibly (mark m "*")
      if !isLoopTarget (← primary m n) then failure
    target
    let _ ← many (do mark m ","; target) n
    let _ ← possibly (mark m ",")

end

/-- All of a text: an expression or a tuple without brackets. -/
def whole (m : Mode) (n : Nat) : Reader Expression := do
  let first ← expression m n
  let rest ← many (do mark m ","; expression m n) n
  let comma ← possibly (mark m ",")
  let _ ← many (mark m "\n") n
  match ← next? m with
  | some _ => failure
  | none => return if rest.isEmpty && comma.isNone then first else .tuple (first :: rest)

/-- Fuel for texts of so many tokens: no token adds more than this to the depth. -/
def depth (tokens : Nat) : Nat := 24 * (tokens + 1)

/-- The expression of some tokens, if they are one, or the mistake that is found. -/
def read (m : Mode) (found : List Token) : Except Fault (Option Expression) := do
  return (← (whole m (depth found.length)).run found).map (·.1)

end Grammar
end DependencyAudit.Console.Handler
