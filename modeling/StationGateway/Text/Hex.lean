/-!
# Hexadecimal digits

The digits of numbers to the base sixteen, read in capital and small letters.
-/

namespace StationGateway.Text

/-- The value of a hexadecimal digit. -/
def hexValue? (char : Char) : Option Nat :=
  if char.isDigit then some (char.toNat - 48)
  else if 'a' ≤ char ∧ char ≤ 'f' then some (char.toNat - 87)
  else if 'A' ≤ char ∧ char ≤ 'F' then some (char.toNat - 55)
  else none

end StationGateway.Text
