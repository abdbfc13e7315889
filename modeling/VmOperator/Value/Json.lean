import VmOperator.Value.Basic
import VmOperator.Text.Integer

/-! Values as JSON text. Reading keeps integers and doubles apart and takes the last of two equal
keys; writing gives a whole double below `2 ^ 53` the form of an integer. -/

namespace VmOperator.Json

def isSpace (c : Char) : Bool := c == ' ' || c == '\t' || c == '\n' || c == '\r'

def skipSpace (s : List Char) : List Char := s.dropWhile isSpace

def quote : Char := Char.ofNat 0x22
def backslash : Char := Char.ofNat 0x5C

def hexDigit? (c : Char) : Option Nat :=
  let n := c.toNat
  if 0x30 ≤ n ∧ n ≤ 0x39 then some (n - 0x30)
  else if 0x41 ≤ n ∧ n ≤ 0x46 then some (n - 0x37)
  else if 0x61 ≤ n ∧ n ≤ 0x66 then some (n - 0x57)
  else none

def hexQuad : List Char → Option (Nat × List Char)
  | a :: b :: c :: d :: rest => do
    let a ← hexDigit? a
    let b ← hexDigit? b
    let c ← hexDigit? c
    let d ← hexDigit? d
    return (((a * 16 + b) * 16 + c) * 16 + d, rest)
  | _ => none

/-- a code unit, joined with a low half that follows a high one; half a pair alone becomes U+FFFD -/
def unitChar (unit : Nat) (rest : List Char) : Char × List Char :=
  if 0xD800 ≤ unit ∧ unit < 0xDC00 then
    match rest with
    | '\\' :: 'u' :: more =>
      match hexQuad more with
      | some (low, after) =>
        if 0xDC00 ≤ low ∧ low < 0xE000 then
          (Char.ofNat (0x10000 + (unit - 0xD800) * 0x400 + (low - 0xDC00)), after)
        else (Char.ofNat 0xFFFD, rest)
      | none => (Char.ofNat 0xFFFD, rest)
    | _ => (Char.ofNat 0xFFFD, rest)
  else if 0xDC00 ≤ unit ∧ unit < 0xE000 then (Char.ofNat 0xFFFD, rest)
  else (Char.ofNat unit, rest)

def simpleEscape? (c : Char) : Option Char :=
  if c = quote ∨ c = backslash ∨ c = '/' then some c
  else if c = 'b' then some (Char.ofNat 8)
  else if c = 'f' then some (Char.ofNat 12)
  else if c = 'n' then some '\n'
  else if c = 'r' then some '\r'
  else if c = 't' then some '\t'
  else none

/-- the rest of a string after its opening quote; `done` holds what was read, last first -/
def readString : (fuel : Nat) → (done : List Char) → List Char → Option (String × List Char)
  | 0, _, _ => none
  | _ + 1, _, [] => none
  | fuel + 1, done, c :: rest =>
    if c = quote then some (String.ofList done.reverse, rest)
    else if c = backslash then
      match rest with
      | 'u' :: more =>
        match hexQuad more with
        | some (unit, after) =>
          let (c, after) := unitChar unit after
          readString fuel (c :: done) after
        | none => none
      | e :: more =>
        match simpleEscape? e with
        | some c => readString fuel (c :: done) more
        | none => none
      | [] => none
    else if c.toNat < 0x20 then none
    else readString fuel (c :: done) rest

def isDigit (c : Char) : Bool := 0x30 ≤ c.toNat && c.toNat ≤ 0x39

def digitsValue (ds : List Char) : Nat := ds.foldl (fun n c => n * 10 + (c.toNat - 0x30)) 0

/-- the part after `e`, zero where there is none -/
def readExponent : List Char → Option (Option Int × List Char)
  | c :: rest =>
    if c = 'e' ∨ c = 'E' then
      let (negative, body) := Text.splitSign rest
      let ds := body.takeWhile isDigit
      if ds.isEmpty then none
      else
        let n : Int := digitsValue ds
        some (some (if negative then -n else n), body.dropWhile isDigit)
    else some (none, c :: rest)
  | [] => some (none, [])

def readFraction : List Char → Option (Option (List Char) × List Char)
  | '.' :: rest =>
    let ds := rest.takeWhile isDigit
    if ds.isEmpty then none else some (some ds, rest.dropWhile isDigit)
  | s => some (none, s)

/-- a number without its sign; one with neither point nor exponent is an integer -/
def readMagnitude (negative : Bool) (s : List Char) : Option (Number × List Char) := do
  let (whole, rest) ← match s with
    | '0' :: rest => some (['0'], rest)
    | s => if (s.takeWhile isDigit).isEmpty then none else some (s.takeWhile isDigit, s.dropWhile isDigit)
  let (fraction, rest) ← readFraction rest
  let (exponent, rest) ← readExponent rest
  match fraction, exponent with
  | none, none =>
    if Text.digitLimit < whole.length then none
    else
      let n : Int := digitsValue whole
      some (.int (if negative then -n else n), rest)
  | _, _ =>
    let ds := fraction.getD []
    let d : Decimal := ⟨digitsValue (whole ++ ds), exponent.getD 0 - ds.length⟩
    some (.double (d.toBinary64 negative), rest)

def word? (word : String) (s : List Char) : Option (List Char) :=
  if word.toList.isPrefixOf s then some (s.drop word.length) else none

def readNumber (s : List Char) : Option (Number × List Char) :=
  match s with
  | '-' :: rest =>
    match word? "Infinity" rest with
    | some after => some (.double (.infinity true), after)
    | none => readMagnitude true rest
  | s => readMagnitude false s

def readWord (s : List Char) : Option (Value × List Char) :=
  [("null", Value.null), ("true", .bool true), ("false", .bool false), ("NaN", .double .nan),
    ("Infinity", .double (.infinity false))].findSome? fun (w, v) => (word? w s).map (v, ·)

mutual

def readValue : (fuel : Nat) → List Char → Option (Value × List Char)
  | 0, _ => none
  | _ + 1, [] => none
  | fuel + 1, c :: rest =>
    if c = quote then (readString fuel [] rest).map fun (s, after) => (.string s, after)
    else if c = '[' then
      match skipSpace rest with
      | ']' :: after => some (.array [], after)
      | s => readItems fuel [] s
    else if c = Char.ofNat 0x7B then
      match skipSpace rest with
      | '}' :: after => some (.object [], after)
      | s => readFields fuel [] s
    else if c = '-' ∨ isDigit c then (readNumber (c :: rest)).map fun (n, after) => (.number n, after)
    else readWord (c :: rest)

/-- the items of an array from its next one on -/
def readItems : (fuel : Nat) → (done : List Value) → List Char → Option (Value × List Char)
  | 0, _, _ => none
  | fuel + 1, done, s =>
    match readValue fuel s with
    | none => none
    | some (v, after) =>
      match skipSpace after with
      | ',' :: rest => readItems fuel (v :: done) (skipSpace rest)
      | ']' :: rest => some (.array (v :: done).reverse, rest)
      | _ => none

/-- the fields of an object from its next key on -/
def readFields : (fuel : Nat) → (done : Fields) → List Char → Option (Value × List Char)
  | 0, _, _ => none
  | _ + 1, _, [] => none
  | fuel + 1, done, c :: rest =>
    if c = quote then
      match readString fuel [] rest with
      | none => none
      | some (key, after) =>
        match skipSpace after with
        | ':' :: after =>
          match readValue fuel (skipSpace after) with
          | none => none
          | some (v, after) =>
            match skipSpace after with
            | ',' :: rest => readFields fuel (done.set key v) (skipSpace rest)
            | '}' :: rest => some (.object (done.set key v), rest)
            | _ => none
        | _ => none
    else none

end

/-- the value of a JSON text, none where the text is not JSON -/
def read? (text : String) : Option Value :=
  let s := skipSpace text.toList
  match readValue (2 * s.length + 2) s with
  | some (v, rest) => if (skipSpace rest).isEmpty then some v else none
  | none => none

mutual

/-- fields in the order of their keys, at every depth -/
def sorted : Value → Value
  | .array items => .array (sortedItems items)
  | .object fields => .object (Fields.sortKeys (sortedFields fields))
  | v => v

def sortedItems : List Value → List Value
  | [] => []
  | v :: rest => sorted v :: sortedItems rest

def sortedFields : List (String × Value) → List (String × Value)
  | [] => []
  | (k, v) :: rest => (k, sorted v) :: sortedFields rest

end

def escapeOnto (acc : String) (c : Char) : String :=
  if c = quote then (acc.push backslash).push quote
  else if c = backslash then (acc.push backslash).push backslash
  else if c.toNat < 0x20 then
    ((acc ++ "\\u00").push (Nat.digitChar (c.toNat / 16))).push (Nat.digitChar (c.toNat % 16))
  else acc.push c

def stringOnto (acc : String) (s : String) : String :=
  (s.toList.foldl escapeOnto (acc.push quote)).push quote

def numberOnto (acc : String) : Number → String
  | .int n => acc ++ toString n
  | .double x =>
    if !x.isFinite then stringOnto acc x.text
    else if x.isIntegral && x.truncate.natAbs < Binary64.mantissaLimit then acc ++ toString x.truncate
    else acc ++ x.text

/-- the text that stands for a key -/
def keyText : Value → String
  | .string s => s
  | .null => "null"
  | .bool b => if b then "true" else "false"
  | .number n => n.text
  | _ => ""

mutual

def writeOnto (acc : String) : Value → String
  | .null => acc ++ "null"
  | .bool b => acc ++ (if b then "true" else "false")
  | .number n => numberOnto acc n
  | .string s => stringOnto acc s
  | .array items => (itemsOnto (acc.push '[') true items).push ']'
  | .object fields => (fieldsOnto (acc.push (Char.ofNat 0x7B)) true fields).push (Char.ofNat 0x7D)
  | .pairs entries => (entriesOnto (acc.push (Char.ofNat 0x7B)) true entries).push (Char.ofNat 0x7D)

def itemsOnto (acc : String) (first : Bool) : List Value → String
  | [] => acc
  | v :: rest => itemsOnto (writeOnto (if first then acc else acc.push ',') v) false rest

def fieldsOnto (acc : String) (first : Bool) : List (String × Value) → String
  | [] => acc
  | (k, v) :: rest =>
    fieldsOnto (writeOnto ((stringOnto (if first then acc else acc.push ',') k).push ':') v) false rest

def entriesOnto (acc : String) (first : Bool) : List (Value × Value) → String
  | [] => acc
  | (k, v) :: rest =>
    entriesOnto (writeOnto ((stringOnto (if first then acc else acc.push ',') (keyText k)).push ':') v)
      false rest

end

def write (v : Value) : String := writeOnto "" v

end VmOperator.Json
