import VmOperator.Failure
import VmOperator.Value.Same

/-! Reading untyped values. A field that is absent takes its default and one of another type is handed
on as it is; only a use that needs a type refuses the value, with `wrongType` or `missingKey`. -/

namespace VmOperator.Value

/-- a field under a key that is text -/
def textEntry? : Value × Value → Option (String × Value)
  | (.string key, v) => some (key, v)
  | _ => none

/-- the fields of an object -/
def fields : Value → Except Failure Fields
  | .object fs => .ok fs
  | .pairs entries => .ok (entries.filterMap textEntry?)
  | v => .error (.wrongType (.fieldOf v))

/-- the field of an object, none where it is absent -/
def get? (v : Value) (key : String) : Except Failure (Option Value) := return Fields.get? (← v.fields) key

/-- the field of an object, `default` where it is absent -/
def get (v : Value) (key : String) (default : Value := .null) : Except Failure Value :=
  return (← v.get? key).getD default

/-- the field of an object that must be there -/
def member (v : Value) (key : String) : Except Failure Value := do
  match ← v.get? key with
  | some x => return x
  | none => throw (.missingKey key)

/-- an object in a field, the empty one where the field counts as unset -/
def section? (v : Value) (key : String) : Except Failure Value :=
  return (← v.get key).orElse (.object [])

/-- the values that a list, a text or an object goes through -/
def items : Value → Except Failure (List Value)
  | .array vs => .ok vs
  | .string s => .ok (s.toList.map fun c => .string (String.ofList [c]))
  | .object fs => .ok (fs.map fun f => .string f.1)
  | .pairs entries => .ok (entries.map (·.1))
  | v => .error (.wrongType (.itemsOf v))

/-- the values in a field, none where it counts as unset -/
def itemsOf (v : Value) (key : String) : Except Failure (List Value) := do
  ((← v.get key).orElse (.array [])).items

/-- a number without its fraction, a boolean as 0 or 1, a text that spells an integer -/
def toInt : Value → Except Failure Int
  | .number (.int n) => .ok n
  | .number (.double .nan) => .error (.badValue .nanToInteger)
  | .number (.double (.infinity _)) => .error .outOfRange
  | .number (.double x) => .ok x.truncate
  | .bool b => .ok (if b then 1 else 0)
  | .string s =>
    match Text.readInteger s with
    | .ok n => .ok n
    | .error .malformed => .error (.badValue (.notAnInteger s))
    | .error (.tooManyDigits count) => .error (.badValue (.tooManyDigits count))
  | v@.null | v@(.array _) | v@(.object _) | v@(.pairs _) => .error (.wrongType (.integerOf v))

/-- the integer in a field, zero where it counts as unset -/
def intOf (v : Value) (key : String) : Except Failure Int := do
  ((← v.get key).orElse (.int 0)).toInt

def toText : Value → Except Failure String
  | .string s => .ok s
  | v => .error (.wrongType (.textOf v))

/-- sets a key in place where the same one is there already -/
def setEntry : List (Value × Value) → Value → Value → List (Value × Value)
  | [], key, v => [(key, v)]
  | (k, old) :: rest, key, v => if k.same key then (k, v) :: rest else (k, old) :: setEntry rest key v

/-- what a list or an object cannot be -/
def checkKey : Value → Except Failure Unit
  | v@(.array _) | v@(.object _) | v@(.pairs _) => .error (.wrongType (.keyOf v))
  | _ => .ok ()

/-- an object of entries, with fields where every key is text -/
def ofEntries (entries : List (Value × Value)) : Value :=
  (entries.mapM textEntry?).elim (.pairs entries) .object

/-- an object, or a list of pairs read as one -/
def toObject (v : Value) : Except Failure Value :=
  match v with
  | .object fs => .ok (.object fs)
  | .pairs entries => .ok (.pairs entries)
  | v => do
    let pairs ← v.items
    let entries ← pairs.zipIdx.foldlM (fun entries (pair, i) => do
      match pair.items with
      | .error _ => throw (.wrongType (.pairOf i))
      | .ok [key, value] => do
        checkKey key
        return setEntry entries key value
      | .ok parts => throw (.badValue (.notAPair i parts.length))) ([] : List (Value × Value))
    return ofEntries entries

/-- six significant digits of a number, of which booleans are two -/
def general : Value → Except Failure String
  | .number n => n.general?.elim (.error .outOfRange) .ok
  | .bool b => .ok (if b then "1" else "0")
  | .string _ => .error (.badValue .textAsNumber)
  | v => .error (.wrongType (.formatOf v))

end VmOperator.Value
