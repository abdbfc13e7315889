import Mathlib.Algebra.Order.Field.Basic
import Mathlib.Algebra.Order.Field.Power
import Mathlib.Data.Rat.Cast.Order
import Mathlib.Tactic.Ring
import VmOperator.Number.Basic

/-! The exact value of a number, as a rational. Numbers are compared by it (`Number.lt_iff`), the lesser of two has the lesser
value (`Number.least_value`), and a double doubled some times is finite or the infinity of its sign
(`Binary64.shift_eq`). -/

namespace VmOperator

/-- scaled integers are compared as the rationals that they stand for -/
theorem scaledLt_iff (a i b j : Int) : scaledLt a i b j = true ↔ (a : ℚ) * 2 ^ i < b * 2 ^ j := by
  have two : (2 : ℚ) ≠ 0 := two_ne_zero
  have raised (c k : Int) (above : min i j ≤ k) :
      (c : ℚ) * 2 ^ k = ((c * (Nat.pow 2 (k - min i j).toNat : Nat) : Int) : ℚ) * 2 ^ min i j := by
    have split : k = ((k - min i j).toNat : Int) + min i j := by omega
    conv_lhs => rw [split, zpow_add₀ two, zpow_natCast, ← mul_assoc]
    rw [Int.cast_mul, Int.cast_natCast, Nat.pow_eq, Nat.cast_pow, Nat.cast_ofNat]
  rw [raised a i (min_le_left ..), raised b j (min_le_right ..), mul_lt_mul_iff_of_pos_right (zpow_pos two_pos _), Int.cast_lt]
  exact decide_eq_true_iff

namespace Number

/-- the exact value, none for infinities and NaN -/
def value? (a : Number) : Option ℚ := a.scaled?.map fun (m, e) => m * 2 ^ e

theorem value?_int (n : Int) : (int n).value? = some (n : ℚ) := by
  simp [value?, scaled?]

variable {a b : Number} {x y : ℚ}

theorem lt_iff (ha : a.value? = some x) (hb : b.value? = some y) : a.lt b = true ↔ x < y := by
  obtain ⟨⟨m, i⟩, ma, rfl⟩ := Option.map_eq_some_iff.1 ha
  obtain ⟨⟨n, j⟩, mb, rfl⟩ := Option.map_eq_some_iff.1 hb
  rw [← scaledLt_iff]
  cases a with
  | int m' =>
    cases b with
    | int n' => simp only [lt, ma, mb]
    | double b =>
      cases b with
      | nan | infinity => cases mb
      | finite => simp only [lt, ma, mb]
  | double a =>
    cases a with
    | nan | infinity => cases ma
    | finite =>
      cases b with
      | int n' => simp only [lt, ma, mb]
      | double b =>
        cases b with
        | nan | infinity => cases mb
        | finite => simp only [lt, ma, mb]

theorem least_value (ha : a.value? = some x) (hb : b.value? = some y) : (a.least b).value? = some (min x y) := by
  unfold least
  by_cases less : b.lt a = true
  · rw [if_pos less, min_eq_right ((lt_iff hb ha).1 less).le, hb]
  · rw [if_neg less, min_eq_left (not_lt.1 fun below => less ((lt_iff hb ha).2 below)), ha]

theorem least_int (m n : Int) : (int m).least (int n) = int (min m n) := by
  unfold least
  by_cases less : (int n).lt (int m) = true
  · rw [if_pos less, min_eq_right (Int.cast_lt.1 ((lt_iff (value?_int n) (value?_int m)).1 less)).le]
  · rw [if_neg less, min_eq_left (not_lt.1 fun below => less ((lt_iff (value?_int n) (value?_int m)).2 (Int.cast_lt.2 below)))]

/-- what is finite is less than positive infinity -/
theorem least_infinity (hb : b.value? = some y) : (double (.infinity false)).least b = b := by
  have less : b.lt (.double (.infinity false)) = true := by
    cases b with
    | int => rfl
    | double b =>
      cases b with
      | nan | infinity => cases hb
      | finite => rfl
  rw [least, if_pos less]

end Number

namespace Binary64

theorem ofRatio_eq (negative : Bool) (num den : Nat) :
    (∃ m e, ofRatio negative num den = .finite negative m e) ∨ num ≠ 0 ∧ ofRatio negative num den = .infinity negative := by
  unfold ofRatio
  by_cases zero : num = 0
  · exact .inl ⟨0, minExponent, if_pos zero⟩
  · rw [if_neg zero]
    have rounded (m : Nat) (e : Int) : let r := if maxExponent < e then infinity negative else finite negative m e
        (∃ m e, r = .finite negative m e) ∨ num ≠ 0 ∧ r = .infinity negative := by
      dsimp only
      split
      · exact .inr ⟨zero, rfl⟩
      · exact .inl ⟨m, e, rfl⟩
    exact rounded _ _

/-- a finite double that is doubled is finite, or too large and the infinity of its sign -/
theorem shift_eq (negative : Bool) (m : Nat) (e : Int) (k : Nat) :
    (∃ m' e', shift (.finite negative m e) k = .finite negative m' e') ∨
      m ≠ 0 ∧ shift (.finite negative m e) k = .infinity negative := by
  unfold shift ofScaled
  dsimp only
  split
  · exact (ofRatio_eq ..).imp_right fun ⟨nonzero, same⟩ => ⟨left_ne_zero_of_mul nonzero, same⟩
  · exact ofRatio_eq ..

end Binary64

end VmOperator
