import VmOperator.Text.Blank

/-! Texts taken apart into lines and into words. -/

namespace VmOperator.Text

/-- every control and separator that ends a line -/
def isLineEnd (c : Char) : Bool :=
  (0x0A ≤ c.toNat && c.toNat ≤ 0x0D) || (0x1C ≤ c.toNat && c.toNat ≤ 0x1E) ||
    [0x85, 0x2028, 0x2029].contains c.toNat

/-- the lines of a text without their ends; the last one may lack its end -/
def lines : List Char → List (List Char)
  | [] => []
  | '\r' :: '\n' :: rest => [] :: lines rest
  | c :: rest =>
    if isLineEnd c then [] :: lines rest
    else match lines rest with
      | [] => [[c]]
      | line :: more => (c :: line) :: more

/-- the parts between the characters that fit, at least one -/
def splitWhere (fits : Char → Bool) : List Char → List (List Char)
  | [] => [[]]
  | c :: rest =>
    if fits c then [] :: splitWhere fits rest
    else match splitWhere fits rest with
      | [] => [[c]]
      | part :: more => (c :: part) :: more

def words (s : List Char) : List (List Char) := (splitWhere isGap s).filter fun word => !word.isEmpty

end VmOperator.Text
