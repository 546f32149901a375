/-!
Strict decoding of UTF-8. The first byte that cannot continue what stands
before it ends the reading, and the fault says which bytes had to be given up.
-/

namespace DependencyAudit.Utf8

inductive Cause
  | badStart
  | badContinuation
  | truncated
deriving DecidableEq, Repr

def Cause.text : Cause → String
  | .badStart => "invalid start byte"
  | .badContinuation => "invalid continuation byte"
  | .truncated => "unexpected end of data"

/-- The bytes `first … first + count - 1` are not the start of a character. -/
structure Fault where
  cause : Cause
  first : Nat
  count : Nat
  byte : UInt8
deriving DecidableEq, Repr

def hexDigits (width n : Nat) : String :=
  let digits := Nat.toDigits 16 n
  String.ofList (List.replicate (width - digits.length) '0' ++ digits)

def Fault.message (f : Fault) : String :=
  let place :=
    if f.count == 1 then s!"byte 0x{hexDigits 2 f.byte.toNat} in position {f.first}"
    else s!"bytes in position {f.first}-{f.first + f.count - 1}"
  s!"'utf-8' codec can't decode {place}: {f.cause.text}"

/-- Bytes of the character that a first byte announces; none for a byte that
starts no character. -/
def announced (b : UInt8) : Nat :=
  if b < 0x80 then 1
  else if b < 0xC2 then 0
  else if b < 0xE0 then 2
  else if b < 0xF0 then 3
  else if b < 0xF5 then 4
  else 0

def isTail (b : UInt8) : Bool := 0x80 ≤ b && b ≤ 0xBF

/-- Second bytes are narrower after four first bytes: overlong forms, surrogates
and code points past the last are refused there. -/
def isSecond (a b : UInt8) : Bool :=
  isTail b && (a != 0xE0 || 0xA0 ≤ b) && (a != 0xED || b ≤ 0x9F)
    && (a != 0xF0 || 0x90 ≤ b) && (a != 0xF4 || b ≤ 0x8F)

def payload (b : UInt8) : Nat := b.toNat % 0x40

def joined (lead : Nat) (tails : List UInt8) : Char :=
  Char.ofNat (tails.foldl (fun n b => n * 0x40 + payload b) lead)

def decodeFrom (pos : Nat) : List UInt8 → Except Fault (List Char)
  | [] => .ok []
  | a :: s =>
    let fault (cause : Cause) (count : Nat) : Except Fault (List Char) :=
      .error ⟨cause, pos, count, a⟩
    match announced a with
    | 1 => do return Char.ofNat a.toNat :: (← decodeFrom (pos + 1) s)
    | 2 =>
      match s with
      | [] => fault .truncated 1
      | b :: s =>
        if !isSecond a b then fault .badContinuation 1
        else do return joined (a.toNat % 0x20) [b] :: (← decodeFrom (pos + 2) s)
    | 3 =>
      match s with
      | [] => fault .truncated 1
      | b :: s =>
        if !isSecond a b then fault .badContinuation 1
        else match s with
        | [] => fault .truncated 2
        | c :: s =>
          if !isTail c then fault .badContinuation 2
          else do return joined (a.toNat % 0x10) [b, c] :: (← decodeFrom (pos + 3) s)
    | 4 =>
      match s with
      | [] => fault .truncated 1
      | b :: s =>
        if !isSecond a b then fault .badContinuation 1
        else match s with
        | [] => fault .truncated 2
        | c :: s =>
          if !isTail c then fault .badContinuation 2
          else match s with
          | [] => fault .truncated 3
          | d :: s =>
            if !isTail d then fault .badContinuation 3
            else do return joined (a.toNat % 0x08) [b, c, d] :: (← decodeFrom (pos + 4) s)
    | _ => fault .badStart 1

def decode (bytes : List UInt8) : Except Fault (List Char) := decodeFrom 0 bytes

end DependencyAudit.Utf8
