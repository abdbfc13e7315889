import VmOperator.Value.Basic
import VmOperator.Text.Quoted

/-! Values as they appear inside messages: `literal` quotes strings, `text` leaves a string that
stands alone as it is, and `typeName` says what kind of value it is. -/

namespace VmOperator.Value

mutual

def literalOnto (acc : String) : Value → String
  | .null => acc ++ "None"
  | .bool b => acc ++ (if b then "True" else "False")
  | .number n => acc ++ n.text
  | .string s => acc ++ Text.quoted s
  | .array items => (itemsOnto (acc.push '[') true items).push ']'
  | .object fields => (fieldsOnto (acc.push (Char.ofNat 0x7B)) true fields).push (Char.ofNat 0x7D)
  | .pairs entries => (entriesOnto (acc.push (Char.ofNat 0x7B)) true entries).push (Char.ofNat 0x7D)

def itemsOnto (acc : String) (first : Bool) : List Value → String
  | [] => acc
  | v :: rest => itemsOnto (literalOnto (if first then acc else acc ++ ", ") v) false rest

def fieldsOnto (acc : String) (first : Bool) : List (String × Value) → String
  | [] => acc
  | (k, v) :: rest =>
    fieldsOnto (literalOnto ((if first then acc else acc ++ ", ") ++ Text.quoted k ++ ": ") v) false rest

def entriesOnto (acc : String) (first : Bool) : List (Value × Value) → String
  | [] => acc
  | (k, v) :: rest =>
    entriesOnto (literalOnto (literalOnto (if first then acc else acc ++ ", ") k ++ ": ") v) false rest

end

def literal (v : Value) : String := literalOnto "" v

def text : Value → String
  | .string s => s
  | v => v.literal

/-- the name of a value's type -/
def typeName : Value → String
  | .null => "NoneType"
  | .bool _ => "bool"
  | .number (.int _) => "int"
  | .number (.double _) => "float"
  | .string _ => "str"
  | .array _ => "list"
  | .object _ | .pairs _ => "dict"

@[simp] theorem text_string (s : String) : (Value.string s).text = s := rfl

end VmOperator.Value
