import DependencyAudit.Console.Handler.Fault
import DependencyAudit.Text.Digit
import DependencyAudit.Text.Search
import DependencyAudit.Text.Word

/-!
The tokens of the arguments that a tag hands over. Tags hold no square brackets, so
there are only round and curly ones. A fault in a token counts before everything
else, but one behind a backslash only when the reading gets there.
-/

namespace DependencyAudit.Console.Handler

inductive Token
  /-- A number; a whole one in decimals has so many digits. -/
  | number (imaginary : Bool) (digits : Nat)
  /-- The letters before a text, and what stands between its quotes. -/
  | text (letters : String) (inside : List Char)
  | name (s : String)
  | mark (s : String)
  | opening (c : Char)
  | closing (c : Char)
  | broken (f : Fault)
deriving DecidableEq, Repr

/-- A token and what stands behind it. -/
abbrev Taken := Except Fault (Token × List Char)

/-! ## Numbers -/

def digits? (isIn : Char → Bool) (s : List Char) : Option (List Char × List Char) :=
  let found := s.takeWhile fun c => isIn c || c = '_'
  let joined := found.head? = some '_' || found.getLast? = some '_'
    || (Text.occursIn ['_', '_'] found)
  if found.isEmpty || joined then none else some (found, s.drop found.length)

/-- Characters that names go on with, if they are names at all. -/
def isNamePart (c : Char) : Bool := 0x80 ≤ c.toNat || Text.isWord c

/-- Words that may follow a number without a space. -/
def numberEnds : List String := ["and", "else", "for", "not", "or"]

/-- The starts of others. -/
def numberEndStarts : List String := ["if", "in", "is"]

/-- A number is not followed by a plain letter, unless that starts one of some words. -/
def checkEnd (kind : String) (s : List Char) : Except Fault Unit :=
  let word := s.takeWhile isNamePart
  if !word.head?.any (·.toNat < 0x80) || numberEnds.contains (String.ofList word)
    || numberEndStarts.any (fun w => w.toList.isPrefixOf word) then .ok ()
  else .error (.number kind)

/-- What follows digits with single underscores between them. A digit may be wanted. -/
def afterDigits (kind : String) (isIn : Char → Bool) (wanted : Bool) :
    List Char → Except Fault (List Char)
  | [] => if wanted then .error (.number kind) else .ok []
  | c :: s =>
    if isIn c then afterDigits kind isIn false s
    else if c = '_' && !wanted then afterDigits kind isIn true s
    else if isDigit c then .error (.digit c kind)
    else if wanted then .error (.number kind)
    else .ok (c :: s)

def based (kind : String) (isIn : Char → Bool) (s : List Char) : Taken := do
  let rest ← afterDigits kind isIn true (if s.head? = some '_' then s.tail else s)
  checkEnd kind rest
  return (.number false 0, rest)

/-- The exponent behind a number, if there is one. -/
def exponent (s : List Char) : Except Fault (Bool × List Char) :=
  match s with
  | e :: r =>
    if e = 'e' || e = 'E' then
      let (_, digits) := Reading.takeSign r
      if digits.head?.any isDigit then
        match digits? isDigit digits with
        | some (_, rest) => .ok (true, rest)
        | none => .error (.number "decimal")
      else if digits.length = r.length then .ok (false, s)
      else .error (.number "decimal")
    else .ok (false, s)
  | [] => .ok (false, s)

def fraction (s : List Char) : Except Fault (Bool × List Char) :=
  match s with
  | '.' :: r =>
    if r.head?.any isDigit then
      match digits? isDigit r with
      | some (_, rest) => .ok (true, rest)
      | none => .error (.number "decimal")
    else .ok (true, r)
  | _ => .ok (false, s)

def decimal (s : List Char) : Taken := do
  let (whole, rest) ←
    if s.head?.any isDigit then
      match digits? isDigit s with
      | some found => pure found
      | none => throw (.number "decimal")
    else pure ([], s)
  let (pointed, rest) ← fraction rest
  let (raised, rest) ← exponent rest
  match rest with
  | j :: r =>
    if j = 'j' || j = 'J' then
      checkEnd "imaginary" r
      return (.number true 0, r)
  | [] => pure ()
  let ended := rest.head?.all fun c => c ≠ 'e' && c ≠ 'E'
  let filled := whole.head? = some '0' && whole.any fun c => c ≠ '0' && c ≠ '_'
  if ended && filled && !pointed && !raised then throw .leadingZero
  checkEnd "decimal" rest
  let digits := (whole.filter (· ≠ '_')).length
  return (.number false (if pointed || raised then 0 else digits), rest)

def number (s : List Char) : Taken :=
  match s with
  | '0' :: m :: r =>
    if m = 'x' || m = 'X' then based "hexadecimal" (fun c => (Reading.hexValue? c).isSome) r
    else if m = 'o' || m = 'O' then based "octal" (fun c => '0' ≤ c && c ≤ '7') r
    else if m = 'b' || m = 'B' then based "binary" (fun c => c = '0' || c = '1') r
    else decimal s
  | _ => decimal s

/-! ## Texts and words -/

def untilQuotes (quotes : List Char) : List Char → Except Fault (List Char × List Char)
  | [] => .error (if quotes.length = 1 then .openText else .openLongText)
  | '\\' :: c :: s => (untilQuotes quotes s).map fun (inside, rest) => ('\\' :: c :: inside, rest)
  | c :: s =>
    if quotes.isPrefixOf (c :: s) then .ok ([], s.drop (quotes.length - 1))
    else if c = '\n' && quotes.length = 1 then .error .openText
    else (untilQuotes quotes s).map fun (inside, rest) => (c :: inside, rest)

def text (letters : String) (quote : Char) (s : List Char) : Taken := do
  let long := [quote, quote, quote]
  let quotes := if long.isPrefixOf s then long else [quote]
  let (inside, rest) ← untilQuotes quotes (s.drop quotes.length)
  return (.text letters inside, rest)

def isQuote (c : Char) : Bool := c = '\'' || c = '"'

/-- Letters that may stand before a quote. -/
def textLetters : List String := ["r", "u", "b", "br", "rb", "f", "fr", "rf"]

/-- Word characters that are in no name: numbers that are neither digits nor letters,
and letters that stand for several. -/
def noNameRanges : List (Nat × Nat) :=
  [
    (0xB2, 0xB3), (0xB9, 0xB9), (0xBC, 0xBE), (0x37A, 0x37A), (0x9F4, 0x9F9), (0xB72, 0xB77),
    (0xBF0, 0xBF2), (0xC78, 0xC7E), (0xD58, 0xD5E), (0xD70, 0xD78), (0xF2A, 0xF33),
    (0x1372, 0x137C), (0x17F0, 0x17F9), (0x2070, 0x2070), (0x2074, 0x2079), (0x2080, 0x2089),
    (0x2150, 0x215F), (0x2189, 0x2189), (0x2460, 0x249B), (0x24EA, 0x24FF), (0x2776, 0x2793),
    (0x2CFD, 0x2CFD), (0x2E2F, 0x2E2F), (0x3192, 0x3195), (0x3220, 0x3229), (0x3248, 0x324F),
    (0x3251, 0x325F), (0x3280, 0x3289), (0x32B1, 0x32BF), (0xA830, 0xA835), (0xFC5E, 0xFC63),
    (0xFDFA, 0xFDFB), (0xFE70, 0xFE70), (0xFE72, 0xFE72), (0xFE74, 0xFE74), (0xFE76, 0xFE76),
    (0xFE78, 0xFE78), (0xFE7A, 0xFE7A), (0xFE7C, 0xFE7C), (0xFE7E, 0xFE7E), (0x10107, 0x10133),
    (0x10175, 0x10178), (0x1018A, 0x1018B), (0x102E1, 0x102FB), (0x10320, 0x10323),
    (0x10858, 0x1085F), (0x10879, 0x1087F), (0x108A7, 0x108AF), (0x108FB, 0x108FF),
    (0x10916, 0x1091B), (0x109BC, 0x109BD), (0x109C0, 0x109CF), (0x109D2, 0x109FF),
    (0x10A40, 0x10A48), (0x10A7D, 0x10A7E), (0x10A9D, 0x10A9F), (0x10AEB, 0x10AEF),
    (0x10B58, 0x10B5F), (0x10B78, 0x10B7F), (0x10BA9, 0x10BAF), (0x10CFA, 0x10CFF),
    (0x10E60, 0x10E7E), (0x10F1D, 0x10F26), (0x10F51, 0x10F54), (0x10FC5, 0x10FCB),
    (0x11052, 0x11065), (0x111E1, 0x111F4), (0x1173A, 0x1173B), (0x118EA, 0x118F2),
    (0x11C5A, 0x11C6C), (0x11FC0, 0x11FD4), (0x16B5B, 0x16B61), (0x16E80, 0x16E96),
    (0x1D2E0, 0x1D2F3), (0x1D360, 0x1D378), (0x1E8C7, 0x1E8CF), (0x1EC71, 0x1ECAB),
    (0x1ECAD, 0x1ECAF), (0x1ECB1, 0x1ECB4), (0x1ED01, 0x1ED2D), (0x1ED2F, 0x1ED3D),
    (0x1F100, 0x1F10C)]

/-- The first character that keeps a word from being a name. -/
def strange? : List Char → Option Char
  | [] => none
  | c :: s =>
    let isOf (c : Char) : Bool := Text.isWord c && !Text.inRanges noNameRanges c.toNat
    if !isOf c || (Text.digitValue? c).isSome then some c else s.find? fun c => !isOf c

def lettered (s : List Char) : Taken :=
  let word := s.takeWhile isNamePart
  let rest := s.drop word.length
  let letters := String.ofList (word.map Char.toLower)
  match rest.head?.filter isQuote, strange? word with
  | some q, none =>
    if textLetters.contains letters then text letters q rest
    else .ok (.name (String.ofList word), rest)
  | none, none => .ok (.name (String.ofList word), rest)
  | _, some c => .error (.character c)

def marks : List String :=
  ["...", "**=", "//=", "<<=", ">>=", "**", "//", "<<", ">>", "<=", ">=", "<>", "==", "!=", "->",
    ":=", "+=", "-=", "*=", "/=", "%=", "@=", "&=", "|=", "^=", "+", "-", "*", "/", "%", "@", "&",
    "|", "^", "~", "<", ">", ",", ":", ".", ";", "=", "$", "?", "!", "`"]

/-- The token at the front of a text that does not start with white space. -/
def token (c : Char) (s : List Char) : Taken :=
  if isDigit c || (c = '.' && s.head?.any isDigit) then number (c :: s)
  else if isNamePart c then lettered (c :: s)
  else if isQuote c then text "" c (c :: s)
  else if c = '(' || c = '\x7b' then .ok (.opening c, s)
  else if c = ')' || c = '\x7d' then .ok (.closing c, s)
  else if c = '\\' then .ok (.broken .continuation, [])
  else
    match marks.find? fun m => m.toList.isPrefixOf (c :: s) with
    | some m => .ok (.mark m, (c :: s).drop m.length)
    | none => .error (.character c)

/-! ## Brackets -/

def partner (c : Char) : Char := if c = ')' then '(' else '\x7b'

def bracketLimit : Nat := 200

/-- The open brackets behind a token, the last first. -/
def bracketsAfter (brackets : List Char) : Token → Except Fault (List Char)
  | .opening c => if brackets.length = bracketLimit then .error .tooDeep else .ok (c :: brackets)
  | .closing c =>
    match brackets with
    | [] => .error (.unmatched c)
    | b :: rest => if b = partner c then .ok rest else .error (.otherBracket c b)
  | _ => .ok brackets

/-- The tokens of a text and the last bracket that is not closed. A line end outside
of all brackets counts as a mark. -/
def tokens : Nat → List Char → List Char → Except Fault (List Token × Option Char)
  | 0, _, _ => .ok ([], none)
  | _, brackets, [] => .ok ([], brackets.head?)
  | fuel + 1, brackets, c :: s =>
    if c = '#' then tokens fuel brackets (s.dropWhile (· ≠ '\n'))
    else if c = ' ' || c = '\t' || c = '\x0c' || (c = '\n' && !brackets.isEmpty) then
      tokens fuel brackets s
    else if c = '\\' && s.head? = some '\n' then tokens fuel brackets s.tail
    else do
      let (t, rest) ← if c = '\n' then pure (.mark "\n", s) else token c s
      let brackets ← bracketsAfter brackets t
      let (found, last) ← tokens fuel brackets rest
      return (t :: found, last)

end DependencyAudit.Console.Handler
