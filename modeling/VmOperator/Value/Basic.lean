import VmOperator.Number.Basic

/-! The untyped values that objects of the store and replies of the appliance are made of. Fields of
an object keep the order in which they were first set; `get?`, `set` and `erase` work by key. An object
that was put together from pairs may have keys that are no texts. -/

namespace VmOperator

inductive Value where
  | null
  | bool (b : Bool)
  | number (n : Number)
  | string (s : String)
  | array (items : List Value)
  | object (fields : List (String × Value))
  | pairs (entries : List (Value × Value))
deriving Repr, Inhabited

abbrev Fields := List (String × Value)

namespace Value

@[match_pattern] abbrev int (n : Int) : Value := .number (.int n)
@[match_pattern] abbrev double (x : Binary64) : Value := .number (.double x)

mutual

def decEq : (a b : Value) → Decidable (a = b)
  | .null, .null => isTrue rfl
  | .bool a, .bool b => if h : a = b then isTrue (h ▸ rfl) else isFalse (by simp [h])
  | .number a, .number b => if h : a = b then isTrue (h ▸ rfl) else isFalse (by simp [h])
  | .string a, .string b => if h : a = b then isTrue (h ▸ rfl) else isFalse (by simp [h])
  | .array a, .array b =>
    match decEqItems a b with
    | isTrue h => isTrue (h ▸ rfl)
    | isFalse h => isFalse (by simp [h])
  | .object a, .object b =>
    match decEqFields a b with
    | isTrue h => isTrue (h ▸ rfl)
    | isFalse h => isFalse (by simp [h])
  | .pairs a, .pairs b =>
    match decEqEntries a b with
    | isTrue h => isTrue (h ▸ rfl)
    | isFalse h => isFalse (by simp [h])
  | .null, .bool _ | .null, .number _ | .null, .string _ | .null, .array _ | .null, .object _
  | .null, .pairs _
  | .bool _, .null | .bool _, .number _ | .bool _, .string _ | .bool _, .array _
  | .bool _, .object _ | .bool _, .pairs _
  | .number _, .null | .number _, .bool _ | .number _, .string _ | .number _, .array _
  | .number _, .object _ | .number _, .pairs _
  | .string _, .null | .string _, .bool _ | .string _, .number _ | .string _, .array _
  | .string _, .object _ | .string _, .pairs _
  | .array _, .null | .array _, .bool _ | .array _, .number _ | .array _, .string _
  | .array _, .object _ | .array _, .pairs _
  | .object _, .null | .object _, .bool _ | .object _, .number _ | .object _, .string _
  | .object _, .array _ | .object _, .pairs _
  | .pairs _, .null | .pairs _, .bool _ | .pairs _, .number _ | .pairs _, .string _
  | .pairs _, .array _ | .pairs _, .object _ => isFalse (by simp)

def decEqItems : (a b : List Value) → Decidable (a = b)
  | [], [] => isTrue rfl
  | [], _ :: _ | _ :: _, [] => isFalse (by simp)
  | a :: s, b :: t =>
    match decEq a b, decEqItems s t with
    | isTrue h, isTrue k => isTrue (h ▸ k ▸ rfl)
    | isFalse h, _ => isFalse (by simp [h])
    | _, isFalse k => isFalse (by simp [k])

def decEqFields : (a b : List (String × Value)) → Decidable (a = b)
  | [], [] => isTrue rfl
  | [], _ :: _ | _ :: _, [] => isFalse (by simp)
  | (i, a) :: s, (j, b) :: t =>
    match decEq a b, decEqFields s t with
    | isTrue h, isTrue k => if e : i = j then isTrue (h ▸ k ▸ e ▸ rfl) else isFalse (by simp [e])
    | isFalse h, _ => isFalse (by simp [h])
    | _, isFalse k => isFalse (by simp [k])

def decEqEntries : (a b : List (Value × Value)) → Decidable (a = b)
  | [], [] => isTrue rfl
  | [], _ :: _ | _ :: _, [] => isFalse (by simp)
  | (i, a) :: s, (j, b) :: t =>
    match decEq i j, decEq a b, decEqEntries s t with
    | isTrue e, isTrue h, isTrue k => isTrue (e ▸ h ▸ k ▸ rfl)
    | isFalse e, _, _ => isFalse (by simp [e])
    | _, isFalse h, _ => isFalse (by simp [h])
    | _, _, isFalse k => isFalse (by simp [k])

end

instance : DecidableEq Value := decEq

/-- null, false, zero and whatever is empty count as unset -/
def isTruthy : Value → Bool
  | .null => false
  | .bool b => b
  | .number n => !n.isZero
  | .string s => s != ""
  | .array items => !items.isEmpty
  | .object fields => !fields.isEmpty
  | .pairs entries => !entries.isEmpty

/-- the value, or `alternative` where it counts as unset -/
def orElse (v alternative : Value) : Value := if v.isTruthy then v else alternative

/-- equal to the number by value, booleans counting as 0 and 1 -/
def isNumber (v : Value) (n : Int) : Bool :=
  match v with
  | .number m => m.same (.int n)
  | .bool b => n == (if b then 1 else 0)
  | _ => false

end Value

namespace Fields

def get? (fs : Fields) (key : String) : Option Value := (fs.find? fun f => f.1 == key).map (·.2)

def has (fs : Fields) (key : String) : Bool := fs.any fun f => f.1 == key

/-- sets a key in place, or at the end where it is new -/
def set : Fields → String → Value → Fields
  | [], key, v => [(key, v)]
  | (k, old) :: rest, key, v => if k = key then (k, v) :: rest else (k, old) :: set rest key v

def erase (fs : Fields) (key : String) : Fields := fs.filter fun f => f.1 != key

/-- sets a key only where it is missing -/
def setDefault (fs : Fields) (key : String) (v : Value) : Fields :=
  if fs.has key then fs else fs.set key v

/-- sets every key of the second, in order -/
def update (fs new : Fields) : Fields := new.foldl (fun fs f => fs.set f.1 f.2) fs

def sortKeys (fs : Fields) : Fields := fs.mergeSort fun a b => decide (a.1 ≤ b.1)

@[simp] theorem get?_nil (key : String) : get? [] key = none := rfl

theorem get?_cons (k : String) (v : Value) (fs : Fields) (key : String) :
    get? ((k, v) :: fs) key = if k = key then some v else get? fs key := by
  by_cases h : k = key <;> simp [get?, h]

theorem get?_set (fs : Fields) (key key' : String) (v : Value) :
    (fs.set key v).get? key' = if key = key' then some v else fs.get? key' := by
  induction fs with
  | nil => simp [set, get?_cons]
  | cons f fs ih =>
    obtain ⟨k, old⟩ := f
    by_cases h : k = key
    · subst h; by_cases h' : k = key' <;> simp [set, get?_cons, h']
    · by_cases h' : key = key'
      · subst h'; simp [set, get?_cons, h, ih]
      · simp [set, get?_cons, h, h', ih]

end Fields
end VmOperator
