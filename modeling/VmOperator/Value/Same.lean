import VmOperator.Value.Basic

/-! Equality by value: an integer, a double and a boolean are the same where they stand for one number,
and the order of an object's fields does not matter. -/

namespace VmOperator.Value

mutual

def same : Value → Value → Bool
  | .null, .null => true
  | .bool a, .bool b => a == b
  | .bool a, .number b => b.same (.int (if a then 1 else 0))
  | .number a, .bool b => a.same (.int (if b then 1 else 0))
  | .number a, .number b => a.same b
  | .string a, .string b => a == b
  | .array a, .array b => sameItems a b
  | .object a, .object b => a.length == b.length && sameFields a b
  | _, _ => false

def sameItems : List Value → List Value → Bool
  | [], [] => true
  | a :: s, b :: t => same a b && sameItems s t
  | _, _ => false

/-- every field of the first is one of the second -/
def sameFields : List (String × Value) → List (String × Value) → Bool
  | [], _ => true
  | (k, v) :: rest, fs =>
    (match Fields.get? fs k with
      | some w => same v w
      | none => false) && sameFields rest fs

end

@[simp] theorem same_string (v : Value) (s : String) : v.same (.string s) = decide (v = .string s) := by
  cases v <;> simp [same]
  rename_i t
  by_cases h : t = s <;> simp [h]

end VmOperator.Value
