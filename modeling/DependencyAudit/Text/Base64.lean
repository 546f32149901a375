/-!
Bytes written in sixty-four letters, four letters for three bytes. Characters
that are no letters are passed over, and padding ends the text.
-/

namespace DependencyAudit.Text.Base64

def digit? (c : Char) : Option Nat :=
  let n := c.toNat
  if 'A' ≤ c ∧ c ≤ 'Z' then some (n - 65)
  else if 'a' ≤ c ∧ c ≤ 'z' then some (n - 97 + 26)
  else if '0' ≤ c ∧ c ≤ '9' then some (n - 48 + 52)
  else if c = '+' then some 62
  else if c = '/' then some 63
  else none

/-- The bytes from a place that is `filled` letters into a group, whose bits so
far make up `bits`, behind `pads` marks of padding. -/
def decodeFrom (filled bits pads : Nat) : List Char → Option (List UInt8)
  | [] => if filled = 0 then some [] else none
  | '=' :: s =>
    if filled < 2 then decodeFrom filled bits pads s
    else if 4 ≤ filled + pads + 1 then some []
    else decodeFrom filled bits (pads + 1) s
  | c :: s =>
    match digit? c with
    | none => decodeFrom filled bits pads s
    | some d =>
      match filled with
      | 0 => decodeFrom 1 d 0 s
      | 1 => (decodeFrom 2 (d % 16) 0 s).map (UInt8.ofNat (bits * 4 + d / 16) :: ·)
      | 2 => (decodeFrom 3 (d % 4) 0 s).map (UInt8.ofNat (bits * 16 + d / 4) :: ·)
      | _ => (decodeFrom 0 0 0 s).map (UInt8.ofNat (bits * 64 + d) :: ·)

def decode (s : List Char) : Option (List UInt8) := decodeFrom 0 0 0 s

end DependencyAudit.Text.Base64
