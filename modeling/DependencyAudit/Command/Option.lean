import DependencyAudit.Text.Search

/-!
Options and arguments on a command line. An option with a value takes what
stands behind an equals sign, or else the next argument, whatever it looks like;
options of one letter may share a dash. Two dashes end the options.
-/

namespace DependencyAudit.Command

inductive OptionFault
  | unknown (name : String)
  | missingValue (name : String)
  | unexpectedValue (name : String)
deriving DecidableEq, Repr

def OptionFault.message : OptionFault → String
  | .unknown name => s!"No such option: {name}"
  | .missingValue name => s!"Option '{name}' requires an argument."
  | .unexpectedValue name => s!"Option '{name}' does not take a value."

/-- The options of a command, by their names with the dashes. -/
structure Options (α : Type) where
  flags : List (String × α)
  values : List (String × (String → α))
  /-- Whether options may follow an argument. -/
  mixed : Bool

inductive Written (α : Type)
  | given (options : List α)
  /-- The last option still waits for its value. -/
  | awaiting (options : List α) (name : String) (last : String → α)
  | fault (f : OptionFault)

namespace Options

variable {α : Type}

def valueText (s : List Char) : String := String.ofList (s.drop 1)

def long? (o : Options α) (arg : List Char) : Option (Written α) :=
  let name := String.ofList (arg.takeWhile (· ≠ '='))
  let behind := arg.dropWhile (· ≠ '=')
  match o.flags.lookup name, o.values.lookup name with
  | some a, _ => some (if behind.isEmpty then .given [a] else .fault (.unexpectedValue name))
  | none, some f =>
    some (if behind.isEmpty then .awaiting [] name f else .given [f (valueText behind)])
  | none, none => none

def shortName (c : Char) : String := String.ofList ['-', c]

def short (o : Options α) (before : List α) : List Char → Written α
  | [] => .given before
  | c :: s =>
    match o.flags.lookup (shortName c), o.values.lookup (shortName c) with
    | some a, _ => short o (before ++ [a]) s
    | none, some f =>
      if s.isEmpty then .awaiting before (shortName c) f
      else .given (before ++ [f (String.ofList s)])
    | none, none => .fault (.unknown (shortName c))

def written (o : Options α) (arg : List Char) : Written α :=
  match arg with
  | '-' :: '-' :: _ =>
    (o.long? arg).getD (.fault (.unknown (String.ofList (arg.takeWhile (· ≠ '=')))))
  | _ => o.short [] (arg.drop 1)

def isOption (arg : List Char) : Bool := arg.head? = some '-' && 1 < arg.length

def read (o : Options α) : List String → Except OptionFault (List α × List String)
  | [] => .ok ([], [])
  | arg :: rest =>
    if arg = "--" then .ok ([], rest)
    else if isOption arg.toList then
      match o.written arg.toList, rest with
      | .fault f, _ => .error f
      | .given options, rest => do
        let (more, others) ← read o rest
        return (options ++ more, others)
      | .awaiting _ name _, [] => .error (.missingValue name)
      | .awaiting options _ last, value :: rest => do
        let (more, others) ← read o rest
        return (options ++ last value :: more, others)
    else if o.mixed then do
      let (more, others) ← read o rest
      return (more, arg :: others)
    else .ok ([], arg :: rest)

end Options
end DependencyAudit.Command
