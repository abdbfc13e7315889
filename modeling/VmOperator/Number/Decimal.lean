import VmOperator.Number.Binary64

/-! Decimal texts of doubles. `shortest` finds the fewest digits that read back as the same double
and of those the nearest, `significant` a fixed number of digits; a `DecimalStyle` then says which
exponents are written positionally and whether a whole number keeps its point. -/

namespace VmOperator

/-- `digits * 10 ^ exponent` -/
structure Decimal where
  digits : Nat
  exponent : Int
deriving DecidableEq, Repr

/-- `num / den / 10 ^ k` as a fraction -/
def scaleByTen (num den : Nat) (k : Int) : Nat × Nat :=
  if 0 ≤ k then (num, den * Nat.pow 10 k.toNat) else (num * Nat.pow 10 (-k).toNat, den)

/-- the power of ten of the leading digit of `num / den`, which is not zero -/
def leadingPower (num den : Nat) : Int :=
  let guess : Int := Int.fdiv (((num.log2 : Int) - (den.log2 : Int)) * 30103) 100000
  let below (k : Int) : Bool := let (n, d) := scaleByTen num den k; n < d
  if below guess then (if below (guess - 1) then guess - 2 else guess - 1)
  else if below (guess + 1) then guess
  else if below (guess + 2) then guess + 1 else guess + 2

namespace Decimal

/-- past these powers of ten every double is infinite or zero -/
def powerLimit : Int := 400

/-- the double nearest to a decimal -/
def toBinary64 (negative : Bool) (d : Decimal) : Binary64 :=
  if d.digits = 0 then .finite negative 0 Binary64.minExponent
  else
    let lead := d.exponent + leadingPower d.digits 1
    if powerLimit < lead then .infinity negative
    else if lead < -powerLimit then .finite negative 0 Binary64.minExponent
    else
      let (n, den) := scaleByTen d.digits 1 (-d.exponent)
      Binary64.ofRatio negative n den

/-- without trailing zeros -/
def trim (d : Decimal) : Decimal := go (d.digits.log2 + 1) d
where
  go : Nat → Decimal → Decimal
    | 0, d => d
    | fuel + 1, d =>
      if d.digits ≠ 0 ∧ d.digits % 10 = 0 then go fuel ⟨d.digits / 10, d.exponent + 1⟩ else d

end Decimal

namespace Binary64

/-- the decimal of at most `count` digits nearest to `num / den` that reads back as `x`, if there is one -/
def readsBack (x : Binary64) (num den : Nat) (lead : Int) (count : Nat) : Option Decimal :=
  let k := lead - count + 1
  let (n, d) := scaleByTen num den k
  let below : Decimal := ⟨n / d, k⟩
  let above : Decimal := ⟨n / d + 1, k⟩
  match below.toBinary64 false == x, above.toBinary64 false == x with
  | true, true => some (if roundDiv n d = n / d then below else above)
  | true, false => some below
  | false, true => some above
  | false, false => none

/-- the fewest digits that read back as the double, sign aside -/
def shortest (x : Binary64) : Decimal :=
  let (num, den) := x.ratio
  if num = 0 then ⟨0, 0⟩
  else
    let plain : Binary64 := match x with
      | .finite _ m e => .finite false m e
      | y => y
    let lead := leadingPower num den
    ((List.range 17).findSome? fun i => readsBack plain num den lead (i + 1)).getD ⟨0, 0⟩ |>.trim

/-- `count` significant digits, the last one rounded to the nearest, a tie to the even digit -/
def significant (x : Binary64) (count : Nat) : Decimal :=
  let (num, den) := x.ratio
  if num = 0 then ⟨0, 0⟩
  else
    let k := leadingPower num den - count + 1
    let (n, d) := scaleByTen num den k
    Decimal.trim ⟨roundDiv n d, k⟩

def isNegative : Binary64 → Bool
  | .finite negative _ _ | .infinity negative => negative
  | .nan => false

end Binary64

/-- where positional notation ends above, and whether a whole number is written with `.0` -/
structure DecimalStyle where
  positionalBelow : Int
  wholePoint : Bool

namespace DecimalStyle

def zeros (n : Nat) : String := String.ofList (List.replicate n '0')

/-- exponents have a sign and at least two digits -/
def exponentText (e : Int) : String :=
  (if e < 0 then "e-" else "e+") ++ (if e.natAbs < 10 then "0" else "") ++ toString e.natAbs

/-- positional from `10 ^ -4` up to the style's bound, exponential outside -/
def magnitude (style : DecimalStyle) (d : Decimal) : String :=
  let ds := (toString d.digits).toList
  let lead : Int := if d.digits = 0 then 0 else d.exponent + (ds.length : Int) - 1
  if lead < -4 ∨ style.positionalBelow ≤ lead then
    let tail := ds.drop 1
    String.ofList (ds.take 1) ++ (if tail.isEmpty then "" else "." ++ String.ofList tail) ++ exponentText lead
  else if lead < 0 then "0." ++ zeros (-lead - 1).toNat ++ String.ofList ds
  else
    let whole := lead.toNat + 1
    if ds.length ≤ whole then
      String.ofList ds ++ zeros (whole - ds.length) ++ (if style.wholePoint then ".0" else "")
    else String.ofList (ds.take whole) ++ "." ++ String.ofList (ds.drop whole)

end DecimalStyle

namespace Binary64

def withSign (x : Binary64) (magnitude : String) : String :=
  if x.isNegative then "-" ++ magnitude else magnitude

/-- a double with the fewest digits that read back, a whole one below `10 ^ 16` ending in `.0` -/
def text : Binary64 → String
  | .nan => "nan"
  | .infinity negative => if negative then "-inf" else "inf"
  | x => x.withSign (DecimalStyle.magnitude ⟨16, true⟩ x.shortest)

/-- a double rounded to six significant digits, trailing zeros dropped -/
def general : Binary64 → String
  | .nan => "nan"
  | .infinity negative => if negative then "-inf" else "inf"
  | x => x.withSign (DecimalStyle.magnitude ⟨6, false⟩ (x.significant 6))

end Binary64
end VmOperator
