/-! The clock of the bench: it stands at the first minute of 2026 plus a number of minutes. -/

namespace VmOperator.Bench

def monthLengths : List Nat := [31, 28, 31, 30, 31, 30, 31, 31, 30, 31, 30, 31]

/-- month and day of a day of the year, both from zero -/
def monthOf : (month day : Nat) → List Nat → Nat × Nat
  | month, day, [] => (month, day)
  | month, day, length :: rest => if day < length then (month, day) else monthOf (month + 1) (day - length) rest

def twoDigits (n : Nat) : String := (if n < 10 then "0" else "") ++ toString n

def clock (minutes : Nat) : String :=
  let (month, day) := monthOf 0 (minutes / 1440) monthLengths
  "2026-" ++ twoDigits (month + 1) ++ "-" ++ twoDigits (day + 1) ++ "T" ++
    twoDigits (minutes / 60 % 24) ++ ":" ++ twoDigits (minutes % 60) ++ ":00Z"

end VmOperator.Bench
