import VmOperator.Text.Blank

/-! Integers written as text: blanks around, one sign, decimal digits of any script with single
underscores between them. More than `digitLimit` digits are refused, whatever follows them. -/

namespace VmOperator.Text

def digitLimit : Nat := 4300

inductive IntegerProblem where
  | malformed
  | tooManyDigits (count : Nat)
deriving DecidableEq, Repr

/-- the digits at the head, last one first, and what follows them; none where an underscore does not
stand between two digits -/
def scanDigits : (digits : List Nat) → (underscore : Bool) → List Char → Option (List Nat × List Char)
  | ds, underscore, [] => if underscore then none else some (ds, [])
  | ds, underscore, c :: rest =>
    match decimalDigit? c with
    | some d => scanDigits (d :: ds) false rest
    | none =>
      if c = '_' then (if underscore ∨ ds.isEmpty then none else scanDigits ds true rest)
      else if underscore then none else some (ds, c :: rest)

def ofDigits (lastFirst : List Nat) : Nat := lastFirst.foldr (fun d n => n * 10 + d) 0

def splitSign : List Char → Bool × List Char
  | '-' :: rest => (true, rest)
  | '+' :: rest => (false, rest)
  | s => (false, s)

def readInteger (s : String) : Except IntegerProblem Int :=
  let (negative, body) := splitSign (s.toList.dropWhile isBlank)
  match scanDigits [] false body with
  | none => .error .malformed
  | some (ds, rest) =>
    if digitLimit < ds.length then .error (.tooManyDigits ds.length)
    else if ds.isEmpty || !rest.all isBlank then .error .malformed
    else .ok (if negative then -(ofDigits ds : Int) else ofDigits ds)

end VmOperator.Text
