import VmOperator.Number.Decimal

/-! A number is an integer of any size or a double. The two stay apart: an interval given as `10` is
counted exactly, one given as `10.0` in doubles. Comparison is by exact value. -/

namespace VmOperator

inductive Number where
  | int (n : Int)
  | double (x : Binary64)
deriving DecidableEq, Repr, Inhabited

namespace Number

/-- a natural number as a double -/
def ofNat (n : Nat) : Number := .double (Binary64.ofRatio false n 1)

def isZero : Number → Bool
  | .int n => n == 0
  | .double x => x.isZero

/-- the value as a signed significand and a power of two, none for infinities and NaN -/
def scaled? : Number → Option (Int × Int)
  | .int n => some (n, 0)
  | .double x => x.signed?

/-- strictly less by exact value; nothing is less than NaN and NaN is less than nothing -/
def lt : Number → Number → Bool
  | .double .nan, _ => false
  | _, .double .nan => false
  | .double (.infinity a), .double (.infinity b) => a && !b
  | .double (.infinity a), _ => a
  | _, .double (.infinity b) => !b
  | a, b =>
    match a.scaled?, b.scaled? with
    | some (m, i), some (n, j) => scaledLt m i n j
    | _, _ => false

/-- equal by exact value -/
def same (a b : Number) : Bool :=
  match a, b with
  | .double .nan, _ => false
  | _, .double .nan => false
  | a, b => !a.lt b && !b.lt a

/-- the second one where it is strictly less, else the first -/
def least (a b : Number) : Number := if b.lt a then b else a

def text : Number → String
  | .int n => toString n
  | .double x => x.text

/-- six significant digits; none for an integer beyond the largest double -/
def general? : Number → Option String
  | .int n => (Binary64.ofInt? n).map Binary64.general
  | .double x => some x.general

end Number
end VmOperator
