import DependencyAudit.Document.Tree
import DependencyAudit.Number.Text

/-!
The order in which the members of a set are shown. A set lays its members out in
slots, and a number has its slot from its value, so a set of numbers is shown by
slots. All other sets are shown as they are written.
-/

namespace DependencyAudit.Yaml.Members

/-- Numbers are told apart by their residues with respect to this prime. -/
def modulus : Nat := Nat.pow 2 61 - 1

/-- Powers of two repeat after 61 steps, in both directions. -/
def residue (significand : Nat) (exponent : Int) : Nat :=
  significand % modulus * Nat.pow 2 (exponent % 61).toNat % modulus

/-- A mark is a residue with the sign of its number; there is none of minus one. -/
def signedMark (negative : Bool) (r : Nat) : Int :=
  if !negative then r else if r = 1 then -2 else -(r : Int)

def infinityMark : Nat := 314159

/-- What the slot of a member follows from, if that is its value alone. -/
def mark? : Scalar → Option Int
  | .bool b => some (if b then 1 else 0)
  | .int n => some (signedMark (n < 0) (residue n.natAbs 0))
  | .float x =>
    match Parts.of x with
    | .notANumber => none
    | .infinite negative => some (signedMark negative infinityMark)
    | .finite negative m q => some (signedMark negative (residue m q))
  | .text "" => some 0
  | .bytes [] => some 0
  | _ => none

/-- A mark as a word of 64 bits. -/
def word (mark : Int) : Nat := (mark % (Nat.pow 2 64 : Nat)).toNat

/-- Slots for a number of members: more than twice as many, unless they are few. -/
def slotCount (members : Nat) : Nat :=
  if members < 5 then 8 else Nat.pow 2 ((2 * members).log2 + 1)

/-- The slots next to a slot that are tried with it, if all of them exist. -/
def nearby (count slot : Nat) : List Nat :=
  if slot + 9 < count then (List.range 10).map (slot + ·) else [slot]

/-- The free slot for a member. The rest of its word leads from one slot to the
next until nothing is left of it; from then on every slot has its turn. -/
def freeSlot (count : Nat) (taken : List Nat) : Nat → Nat → Nat → Nat
  | 0, slot, _ => slot
  | fuel + 1, slot, rest =>
    match (nearby count slot).find? fun s => !taken.contains s with
    | some s => s
    | none =>
      let rest := rest / 32
      freeSlot count taken fuel ((5 * slot + 1 + rest) % count) rest

/-- The members with their slots; a word is used up in fewer than 16 steps. -/
def place (count : Nat) (placed : List (Nat × Scalar)) (member : Int × Scalar) :
    List (Nat × Scalar) :=
  let w := word member.1
  placed ++ [(freeSlot count (placed.map (·.1)) (count + 16) (w % count) w, member.2)]

def inOrder (members : List Scalar) : List Scalar :=
  match members.mapM fun s => (mark? s).map (·, s) with
  | none => members
  | some marked =>
    let placed := marked.foldl (place (slotCount members.length)) []
    (placed.mergeSort fun a b => a.1 ≤ b.1).map (·.2)

end DependencyAudit.Yaml.Members
