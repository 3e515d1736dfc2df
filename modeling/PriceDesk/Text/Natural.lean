import PriceDesk.Number.Power

namespace PriceDesk.Text

/-- The value of an unsigned number below a power of two: an optional plus sign, then digits only. -/
def natural? (bits : Nat) (cs : List Char) : Option Nat :=
  let digits := match cs with
    | '+' :: rest => rest
    | _ => cs
  if digits.isEmpty || !digits.all Char.isDigit then none
  else
    let n := Nat.ofDigitChars 10 digits 0
    if n < twoTo bits then some n else none

end PriceDesk.Text
