import DependencyAudit.Number.Reading
import DependencyAudit.Text.Printable
import DependencyAudit.Text.Utf8

/-!
What can be wrong with the arguments that a tag hands over, and how that is said.
-/

namespace DependencyAudit.Console.Handler

/-- Escapes in a text that are of no use. -/
inductive Escape
  | cut (mark : Char)
  | tooLarge
  | named
deriving DecidableEq, Repr

def Escape.message : Escape → String
  | .cut 'x' => "truncated \\xXX escape"
  | .cut 'u' => "truncated \\uXXXX escape"
  | .cut _ => "truncated \\UXXXXXXXX escape"
  | .tooLarge => "illegal Unicode character"
  | .named => "malformed \\N character escape"

inductive Fault
  | invalid
  | nullCharacter
  /- of tokens -/
  | unmatched (bracket : Char)
  | otherBracket (closing opening : Char)
  | tooDeep
  | openText
  | openLongText
  | number (kind : String)
  | digit (d : Char) (kind : String)
  | leadingZero
  | character (c : Char)
  | continuation
  /- of what stands between brackets -/
  | unclosed (bracket : Char)
  | forgottenComma
  | equals
  | assignment (target : String)
  | namedAssignment (target : String)
  | argumentAssignment
  | constantAssignment (constant : String)
  | loopAssignment (target : String)
  | elseExpected
  | callExpected (name : String)
  | bracketsOfParameters
  | star
  | starHere
  | doubleStarHere
  | starInLoop
  | doubleStarInLoop
  | loopTarget
  | colonExpected
  | starredValue
  | valueExpected
  /- of texts and numbers -/
  | mixedTexts
  | escape (e : Escape) (first last : Nat)
  | byteEscape (position : Nat)
  | byteCharacter
  | tooLong (digits : Nat)
  /- of values -/
  | unhashable (kind : String)
  | noKey
  | notLiteral
deriving DecidableEq, Repr

/-- At least four digits, as many as the code point needs. -/
def codePoint (c : Char) : String :=
  let n := c.toNat
  let digits := if n < 0x10000 then 4 else if n < 0x100000 then 5 else 6
  "U+" ++ (Utf8.hexDigits digits n).toUpper

namespace Fault

def message : Fault → String
  | invalid => "invalid syntax"
  | nullCharacter => "source code string cannot contain null bytes"
  | unmatched b => s!"unmatched '{b}'"
  | otherBracket closing opening =>
    s!"closing parenthesis '{closing}' does not match opening parenthesis '{opening}'"
  | tooDeep => "too many nested parentheses"
  | openText => "unterminated string literal (detected at line 1)"
  | openLongText => "unterminated triple-quoted string literal (detected at line 1)"
  | number kind => s!"invalid {kind} literal"
  | digit d kind => s!"invalid digit '{d}' in {kind} literal"
  | leadingZero =>
    "leading zeros in decimal integer literals are not permitted; "
      ++ "use an 0o prefix for octal integers"
  | character c =>
    if Text.isPrintable c then s!"invalid character '{c}' ({codePoint c})"
    else s!"invalid non-printable character {codePoint c}"
  | continuation => "unexpected character after line continuation character"
  | unclosed b => s!"'{b}' was never closed"
  | forgottenComma => "invalid syntax. Perhaps you forgot a comma?"
  | equals => "invalid syntax. Maybe you meant '==' or ':=' instead of '='?"
  | assignment target => s!"cannot assign to {target} here. Maybe you meant '==' instead of '='?"
  | namedAssignment target => s!"cannot use assignment expressions with {target}"
  | argumentAssignment => "expression cannot contain assignment, perhaps you meant \"==\"?"
  | constantAssignment constant => s!"cannot assign to {constant}"
  | loopAssignment target => s!"cannot assign to {target}"
  | elseExpected => "expected 'else' after 'if' expression"
  | callExpected name =>
    s!"Missing parentheses in call to '{name}'. Did you mean {name}(...)?"
  | bracketsOfParameters => "Lambda expression parameters cannot be parenthesized"
  | star => "Invalid star expression"
  | starHere => "cannot use starred expression here"
  | doubleStarHere => "cannot use double starred expression here"
  | starInLoop => "iterable unpacking cannot be used in comprehension"
  | doubleStarInLoop => "dict unpacking cannot be used in dict comprehension"
  | loopTarget => "did you forget parentheses around the comprehension target?"
  | colonExpected => "':' expected after dictionary key"
  | starredValue => "cannot use a starred expression in a dictionary value"
  | valueExpected => "expression expected after dictionary key and ':'"
  | mixedTexts => "cannot mix bytes and nonbytes literals"
  | escape e first last =>
    s!"(unicode error) 'unicodeescape' codec can't decode bytes in position {first}-{last}: "
      ++ e.message
  | byteEscape position => s!"(value error) invalid \\x escape at position {position}"
  | byteCharacter => "bytes can only contain ASCII literal characters"
  | tooLong digits =>
    Reading.tooLongMessage digits ++ " - Consider hexadecimal for huge integer literals "
      ++ "to avoid decimal conversion limits."
  | unhashable kind => s!"unhashable type: '{kind}'"
  | noKey => "malformed node or string: None"
  | notLiteral => "malformed node or string on line 1"

/-- Whether the text can be read, but has no value. -/
def isOfValue : Fault → Bool
  | unhashable _ => true
  | noKey => true
  | notLiteral => true
  | _ => false

end Fault
end DependencyAudit.Console.Handler
