import VmOperator.Bytes.Utf8

/-! Texts in units of one, two or four bytes. Where the first four bytes of a text hold two ASCII
characters, their zeros tell the size of its units and which byte of a unit comes first. -/

namespace VmOperator.Wide

inductive Units where
  | bytes
  | pairs (bigFirst : Bool)
  | quads (bigFirst : Bool)
deriving DecidableEq, Repr

/-- the units that the zeros among the first four bytes tell of -/
def unitsOf? (bytes : List UInt8) : Option Units :=
  match (bytes.take 4).map (· == 0) with
  | [true, true, true, false] => some (.quads true)
  | [false, true, true, true] => some (.quads false)
  | [true, false, true, false] => some (.pairs true)
  | [false, true, false, true] => some (.pairs false)
  | zeros => if zeros.contains true then none else some .bytes

/-- groups of two bytes as numbers, none where a byte is left over -/
def pairsOf? (bigFirst : Bool) : List UInt8 → Option (List Nat)
  | [] => some []
  | a :: b :: rest =>
    let n := if bigFirst then a.toNat * 0x100 + b.toNat else b.toNat * 0x100 + a.toNat
    (pairsOf? bigFirst rest).map (n :: ·)
  | [_] => none

/-- pairs of numbers as numbers, none where one is left over -/
def quadsOf? (bigFirst : Bool) : List Nat → Option (List Nat)
  | [] => some []
  | a :: b :: rest =>
    let n := if bigFirst then a * 0x10000 + b else b * 0x10000 + a
    (quadsOf? bigFirst rest).map (n :: ·)
  | [_] => none

def isHigh (n : Nat) : Bool := 0xD800 ≤ n && n < 0xDC00
def isLow (n : Nat) : Bool := 0xDC00 ≤ n && n < 0xE000

/-- characters of units of two bytes, none where half of a character stands alone -/
def joinHalves? : List Nat → Option (List Char)
  | [] => some []
  | n :: rest =>
    if isHigh n then
      match rest with
      | low :: rest =>
        if isLow low then
          (joinHalves? rest).map (Char.ofNat (0x10000 + (n - 0xD800) * 0x400 + (low - 0xDC00)) :: ·)
        else none
      | [] => none
    else if isLow n then none
    else (joinHalves? rest).map (Char.ofNat n :: ·)

/-- a number is a character or nothing -/
def char? (n : Nat) : Option Char :=
  if isHigh n || isLow n || 0x110000 ≤ n then none else some (Char.ofNat n)

/-- a text of given units; one of single bytes may begin with a mark that says so -/
def decode? (units : Units) (bytes : List UInt8) : Option (List Char) :=
  match units with
  | .bytes =>
    let body := if [0xEF, 0xBB, 0xBF].isPrefixOf bytes then bytes.drop 3 else bytes
    (Utf8.decode body).toOption.map String.toList
  | .pairs bigFirst => (pairsOf? bigFirst bytes).bind joinHalves?
  | .quads bigFirst => do
    let pairs ← pairsOf? bigFirst bytes
    (← quadsOf? bigFirst pairs).mapM char?

/-- a text of more than three bytes in the units that it tells of, one of at most three in bytes -/
def text? (bytes : List UInt8) : Option String := do
  let units ← if 3 < bytes.length then unitsOf? bytes else some .bytes
  return String.ofList (← decode? units bytes)

end VmOperator.Wide
