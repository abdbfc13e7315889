import VmOperator.Settings.Basic
import VmOperator.Settings.EnvFile
import VmOperator.Text.Lower
import VmOperator.Value.Json

/-! Reading settings. Given values win over the environment, which wins over the file of environment
variables; names of variables carry `variableHead`, and the case of names does not matter. Every setting is
read by itself, so all problems are reported, in the order of the settings. -/

namespace VmOperator.Settings

/-- why a value does not fit its setting -/
inductive Misfit where
  | textType
  | flagType
  | flagText
  | countType
  | countText
  | countTooLong
  | countFraction
  | notFinite
  | delayType
  | delayText
deriving DecidableEq, Repr

structure Problem where
  setting : String
  misfit : Misfit
deriving DecidableEq, Repr

def trim (s : String) : List Char := Text.trimBy Text.isBlank s.toList

/-- single underscores between other characters are left out -/
def dropUnderscores? (s : List Char) : Option (List Char) :=
  let doubled := (s.zip (s.drop 1)).any fun (a, b) => a == '_' && b == '_'
  if !s.contains '_' || doubled || s.head? == some '_' || s.getLast? == some '_' then none
  else some (s.filter (· != '_'))

def readFlag (s : String) : Option Bool :=
  let s := String.ofList (s.toList.map Text.asciiLower)
  if ["1", "on", "t", "true", "y", "yes"].contains s then some true
  else if ["0", "off", "f", "false", "n", "no"].contains s then some false
  else none

/-- an optional minus and digits without a leading zero -/
def readPlain (s : List Char) : Except Misfit Int :=
  let (negative, body) := match s with
    | '-' :: rest => (true, rest)
    | s => (false, s)
  let digits := body.takeWhile Json.isDigit
  if body == ['0'] then .ok 0
  else if digits.isEmpty || digits.head? == some '0' then .error .countText
  else if Text.digitLimit < digits.length then .error .countTooLong
  else if digits.length != body.length then .error .countText
  else
    let n : Int := Json.digitsValue digits
    .ok (if negative then -n else n)

/-- after a zero or an underscore `last`: more of them are dropped, the last one only in front of
another digit or a sign -/
def dropZerosAfter (last : Char) : List Char → Option (List Char)
  | [] => some [last]
  | c :: rest =>
    if c = '0' ∨ c = '_' then dropZerosAfter c rest
    else if Json.isDigit c ∨ c = '-' then some (c :: rest)
    else if c = '.' then some (last :: c :: rest)
    else none

def dropZeros : List Char → Option (List Char)
  | '0' :: rest => dropZerosAfter '0' rest
  | c :: rest => if Json.isDigit c then some (c :: rest) else none
  | [] => none

/-- zeros behind a minus are leading ones too -/
def dropSignedZeros : List Char → Option (List Char)
  | '-' :: rest => (dropZeros rest).map ('-' :: ·)
  | s => dropZeros s

/-- without a fraction of zeros, of which there is at least one -/
def dropFraction (s : List Char) : List Char :=
  let zeros := (s.dropWhile (· != '.')).drop 1
  if !zeros.isEmpty && zeros.all (· == '0') then s.takeWhile (· != '.') else s

def dropPlus : List Char → Option (List Char)
  | '+' :: '-' :: _ => none
  | '+' :: rest => some rest
  | s => some s

/-- without blanks, a plus, leading zeros, a fraction of zeros and underscores -/
def simplified? (s : List Char) : Option (List Char) := do
  let t := dropFraction (← dropSignedZeros (← dropPlus (Text.trimBy Text.isBlank s)))
  return (dropUnderscores? t).getD t

/-- an integer as it stands, else in its simplified form, which is not told apart from other text where
it is too long -/
def readCount (s : String) : Except Misfit Int :=
  match readPlain s.toList with
  | .error .countText =>
    match (simplified? s.toList).map readPlain with
    | some (.ok n) => .ok n
    | _ => .error .countText
  | result => result

/-- a decimal with a point and an exponent, or a name of infinity or of no number -/
def readDecimal (s : List Char) : Option Binary64 :=
  let (negative, body) := Text.splitSign s
  let name := String.ofList (body.map Text.asciiLower)
  if name == "inf" || name == "infinity" then some (.infinity negative)
  else if name == "nan" then some .nan
  else
    let whole := body.takeWhile Json.isDigit
    let rest := body.dropWhile Json.isDigit
    let (fraction, rest) := match rest with
      | '.' :: more => (more.takeWhile Json.isDigit, more.dropWhile Json.isDigit)
      | rest => ([], rest)
    if whole.isEmpty && fraction.isEmpty then none
    else match Json.readExponent rest with
      | some (exponent, []) =>
        let d : Decimal := ⟨Json.digitsValue (whole ++ fraction), exponent.getD 0 - fraction.length⟩
        some (d.toBinary64 negative)
      | _ => none

def readDelay (s : String) : Option Binary64 :=
  (readDecimal (trim s)).or ((dropUnderscores? s.toList).bind readDecimal)

/-- integers and whole doubles are words up to this magnitude, which itself is one only as a negative
integer -/
def wordLimit : Nat := 9223372036854775808

def isWord (n : Int) : Bool := -(wordLimit : Int) ≤ n && n < wordLimit

def flagOf (v : Value) : Except Misfit Bool :=
  match v with
  | .bool b => .ok b
  | .string s => (readFlag s).elim (.error .flagText) .ok
  | .number n =>
    if n.same (.int 0) then .ok false
    else if n.same (.int 1) then .ok true
    else match n with
      | .int n => .error (if isWord n then .flagText else .flagType)
      | .double x =>
        .error (if x.isIntegral && x.truncate.natAbs < wordLimit then .flagText else .flagType)
  | _ => .error .flagType

def countOf (v : Value) : Except Misfit Int :=
  match v with
  | .bool b => .ok (if b then 1 else 0)
  | .string s => readCount s
  | .number (.int n) => .ok n
  | .number (.double x) =>
    if !x.isFinite then .error .notFinite
    else if !x.isIntegral then .error .countFraction
    else if x.truncate.natAbs < wordLimit then .ok x.truncate
    else .error .countTooLong
  | _ => .error .countType

def delayOf (v : Value) : Except Misfit Number :=
  match v with
  | .bool b => .ok (.ofNat (if b then 1 else 0))
  | .string s => (readDelay s).elim (.error .delayText) fun x => .ok (.double x)
  | .number (.int n) => (Binary64.ofInt? n).elim (.error .delayType) fun x => .ok (.double x)
  | .number (.double x) => .ok (.double x)
  | _ => .error .delayType

def Slot.assign (s : Settings) (v : Value) : Slot → Except Misfit Settings
  | .text _ set =>
    match v with
    | .string t => .ok (set t s)
    | _ => .error .textType
  | .flag _ set => (flagOf v).map fun b => set b s
  | .count _ set => (countOf v).map fun n => set n s
  | .delay _ set => (delayOf v).map fun n => set n s

/-- every variable's name starts with this, in any case -/
def variableHead : String := "freebox_capi_"

/-- the first field with the setting's name -/
def given? (fs : Fields) (setting : String) : Option Value :=
  (fs.find? fun f => Text.lower f.1 == setting).map (·.2)

/-- the last binding of a setting's variable, none where it binds no value -/
def bound? (bindings : EnvFile.Bindings) (setting : String) : Option Value :=
  (bindings.reverse.find? fun b => Text.lower b.1 == variableHead ++ setting).bind fun b =>
    b.2.map Value.string

def assignEntry (source : String → Option Value) (s : Settings) (e : Entry) : Except Misfit Settings :=
  match source e.name with
  | none => .ok s
  | some v => e.slot.assign s v

/-- the settings that a source gives over the defaults, or every value that does not fit -/
def ofSource (source : String → Option Value) : Except (List Problem) Settings :=
  let (s, problems) := entries.foldl (fun (s, problems) e =>
    match assignEntry source s e with
    | .ok s => (s, problems)
    | .error m => (s, problems ++ [⟨e.name, m⟩])) ({}, [])
  if problems.isEmpty then .ok s else .error problems

def read (given : Fields) (environment : EnvFile.Bindings) (file : String) :
    Except (List Problem) Settings :=
  let fromFile := EnvFile.read environment file
  ofSource fun setting =>
    ((given? given setting).or (bound? environment setting)).or (bound? fromFile setting)

end VmOperator.Settings
