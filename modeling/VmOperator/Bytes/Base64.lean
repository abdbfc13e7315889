/-! Base64. `encode` writes the padded standard form; `decode` passes over characters outside the
alphabet, stops at a padding that completes a group and refuses a group left incomplete. -/

namespace VmOperator.Base64

inductive Problem where
  | incorrectPadding
  | lonelyCharacter (count : Nat)
deriving DecidableEq, Repr

/-- the alphabet's character for six bits -/
def digit (n : Nat) : Char :=
  if n < 26 then Char.ofNat (0x41 + n)
  else if n < 52 then Char.ofNat (0x61 + (n - 26))
  else if n < 62 then Char.ofNat (0x30 + (n - 52))
  else if n = 62 then '+' else '/'

def value? (c : Char) : Option Nat :=
  let n := c.toNat
  if 0x41 ≤ n ∧ n ≤ 0x5A then some (n - 0x41)
  else if 0x61 ≤ n ∧ n ≤ 0x7A then some (n - 0x61 + 26)
  else if 0x30 ≤ n ∧ n ≤ 0x39 then some (n - 0x30 + 52)
  else if c = '+' then some 62
  else if c = '/' then some 63
  else none

def encodeBytes : List UInt8 → List Char
  | [] => []
  | [a] => [digit (a.toNat / 4), digit (a.toNat % 4 * 16), '=', '=']
  | [a, b] =>
    [digit (a.toNat / 4), digit (a.toNat % 4 * 16 + b.toNat / 16), digit (b.toNat % 16 * 4), '=']
  | a :: b :: c :: rest =>
    digit (a.toNat / 4) :: digit (a.toNat % 4 * 16 + b.toNat / 16) ::
      digit (b.toNat % 16 * 4 + c.toNat / 64) :: digit (c.toNat % 64) :: encodeBytes rest

def encode (bytes : List UInt8) : String := String.ofList (encodeBytes bytes)

/-- inside a group: nothing yet, six bits, twelve or eighteen, of which those not yet written are kept -/
inductive Place where
  | start
  | one (bits : Nat)
  | two (bits : Nat) (pads : Nat)
  | three (bits : Nat)
deriving DecidableEq, Repr

/-- `done` holds the bytes so far, last one first -/
def decodeFrom (done : List UInt8) : Place → List Char → Except Problem (List UInt8)
  | .start, [] => .ok done.reverse
  | .one _, [] => .error (.lonelyCharacter (done.length / 3 * 4 + 1))
  | .two _ _, [] | .three _, [] => .error .incorrectPadding
  | place, c :: rest =>
    if c = '=' then
      match place with
      | .two bits pads => if pads = 0 then decodeFrom done (.two bits 1) rest else .ok done.reverse
      | .three _ => .ok done.reverse
      | place => decodeFrom done place rest
    else
      match value? c with
      | none => decodeFrom done place rest
      | some v =>
        match place with
        | .start => decodeFrom done (.one v) rest
        | .one bits => decodeFrom (UInt8.ofNat (bits * 4 + v / 16) :: done) (.two (v % 16) 0) rest
        | .two bits _ => decodeFrom (UInt8.ofNat (bits * 16 + v / 4) :: done) (.three (v % 4)) rest
        | .three bits => decodeFrom (UInt8.ofNat (bits * 64 + v) :: done) .start rest

def decode (s : List Char) : Except Problem (List UInt8) := decodeFrom [] .start s

end VmOperator.Base64
