/-! Double precision in exact arithmetic. A finite double is a sign, a mantissa below `2 ^ 53` and a
power of two; every operation rounds once, to the nearest double, a tie to the even mantissa. Nothing
here rests on the machine's own floats, so all of it can be evaluated and reasoned about. -/

namespace VmOperator

/-- `num / den` to the nearest natural number, a tie to the even one -/
def roundDiv (num den : Nat) : Nat :=
  let q := num / den
  let twice := 2 * (num % den)
  if twice < den then q else if den < twice then q + 1 else q + q % 2

inductive Binary64 where
  | nan
  | infinity (negative : Bool)
  | finite (negative : Bool) (mantissa : Nat) (exponent : Int)
deriving DecidableEq, Repr, Inhabited

namespace Binary64

def minExponent : Int := -1074
def maxExponent : Int := 971
def mantissaLimit : Nat := Nat.pow 2 53

def zero : Binary64 := .finite false 0 minExponent

/-- `num / (den * 2 ^ e)` as a fraction of natural numbers -/
def scaleBy (num den : Nat) (e : Int) : Nat × Nat :=
  if 0 ≤ e then (num, den * Nat.pow 2 e.toNat) else (num * Nat.pow 2 (-e).toNat, den)

/-- the exponent under which `num / den` has a mantissa of 53 bits, or the least exponent there is -/
def exponentFor (num den : Nat) : Int :=
  let low : Int := (num.log2 : Int) - (den.log2 : Int) - 53
  let (n, d) := scaleBy num den low
  max minExponent (if mantissaLimit ≤ n / d then low + 1 else low)

/-- the double nearest to `num / den`; beyond the largest one lies infinity -/
def ofRatio (negative : Bool) (num den : Nat) : Binary64 :=
  if num = 0 then .finite negative 0 minExponent
  else
    let e := exponentFor num den
    let (n, d) := scaleBy num den e
    let m := roundDiv n d
    let (m, e) := if m = mantissaLimit then (m / 2, e + 1) else (m, e)
    if maxExponent < e then .infinity negative else .finite negative m e

/-- the double nearest to `mantissa * 2 ^ exponent` -/
def ofScaled (negative : Bool) (mantissa : Nat) (exponent : Int) : Binary64 :=
  if 0 ≤ exponent then ofRatio negative (mantissa * Nat.pow 2 exponent.toNat) 1
  else ofRatio negative mantissa (Nat.pow 2 (-exponent).toNat)

/-- the double nearest to an integer, none when that is beyond the largest one -/
def ofInt? (n : Int) : Option Binary64 :=
  match ofRatio (n < 0) n.natAbs 1 with
  | .infinity _ => none
  | x => some x

/-- the magnitude as a fraction, `0` when not finite -/
def ratio : Binary64 → Nat × Nat
  | .finite _ m e => if 0 ≤ e then (m * Nat.pow 2 e.toNat, 1) else (m, Nat.pow 2 (-e).toNat)
  | _ => (0, 1)

def isFinite : Binary64 → Bool
  | .finite .. => true
  | _ => false

def isZero : Binary64 → Bool
  | .finite _ m _ => m == 0
  | _ => false

/-- finite and without a fraction -/
def isIntegral (x : Binary64) : Bool :=
  x.isFinite && x.ratio.1 % x.ratio.2 == 0

/-- a finite double without its fraction -/
def truncate : Binary64 → Int
  | .finite negative m e =>
    let (n, d) := ratio (.finite negative m e)
    if negative then -((n / d : Nat) : Int) else ((n / d : Nat) : Int)
  | _ => 0

/-- `x * 2 ^ k` -/
def shift (x : Binary64) (k : Nat) : Binary64 :=
  match x with
  | .finite negative m e => ofScaled negative m (e + k)
  | x => x

/-- the signed mantissa and its exponent; both infinities and NaN are none -/
def signed? : Binary64 → Option (Int × Int)
  | .finite negative m e => some (if negative then -(m : Int) else (m : Int), e)
  | _ => none

end Binary64

/-- `a * 2 ^ i < b * 2 ^ j` -/
def scaledLt (a i b j : Int) : Bool :=
  let low := min i j
  a * (Nat.pow 2 (i - low).toNat : Nat) < b * (Nat.pow 2 (j - low).toNat : Nat)

end VmOperator
