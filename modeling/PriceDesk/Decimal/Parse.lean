import PriceDesk.Decimal.Arithmetic
import PriceDesk.Text.Blank
import PriceDesk.Text.Natural

namespace PriceDesk.Decimal

/-- What has been read of a plain number: mantissa, places, whether the point was met, and whether
any digit was. -/
structure Reading where
  mantissa : Nat := 0
  scale : Nat := 0
  point : Bool := false
  digit : Bool := false

/-- Whether the characters after the last digit that counts are ones a number may hold. -/
def skippable (point : Bool) : List Char → Bool
  | [] => true
  | c :: rest =>
    if c.isDigit || c == '_' then skippable point rest
    else c == '.' && !point && skippable true rest

def roundReading (r : Reading) (d : Nat) : Option (Nat × Nat) :=
  let m := if 5 ≤ d then r.mantissa + 1 else r.mantissa
  if m < twoTo 96 then some (m, r.scale)
  else if r.scale == 0 then none
  else some ((m + 4) / 10, r.scale - 1)

def readPlain (r : Reading) : List Char → Option (Nat × Nat)
  | [] => if r.digit then some (r.mantissa, r.scale) else none
  | c :: rest =>
    if c.isDigit then
      let d := c.toNat - '0'.toNat
      let m := 10 * r.mantissa + d
      if r.point then
        if r.scale == 28 || twoTo 96 ≤ m then
          if skippable true rest then roundReading r d else none
        else readPlain { r with mantissa := m, scale := r.scale + 1, digit := true } rest
      else if m < twoTo 96 then readPlain { r with mantissa := m, digit := true } rest
      else none
    else if c == '.' && !r.point then readPlain { r with point := true } rest
    else if c == '_' && r.digit then readPlain r rest
    else none

def ofPlain? (cs : List Char) : Option Decimal := do
  let (negative, body) := match cs with
    | '-' :: rest => (true, rest)
    | '+' :: rest => (false, rest)
    | _ => (false, cs)
  let (m, s) ← readPlain {} body
  (ofParts? negative m s).map unsignZero

/-- The number divided by 10^x. Digits beyond 28 places are dropped, the first of them rounded half
up. -/
def shiftDown (d : Decimal) (x : Nat) : Option Decimal :=
  if 28 < x then none
  else if d.scale + x ≤ 28 then ofParts? d.negative d.mantissa (d.scale + x)
  else
    let k := d.scale + x - 28
    let kept := d.mantissa / tenTo k
    let m := if 5 ≤ d.mantissa / tenTo (k - 1) % 10 then kept + 1 else kept
    ofParts? d.negative m 28

def shiftUp (d : Decimal) (x : Nat) : Option Decimal :=
  if x ≤ d.scale then ofParts? d.negative d.mantissa (d.scale - x)
  else if 28 < x then none
  else do
    let near ← ofParts? false (tenTo (min x 19)) 0
    let far ← ofParts? false (tenTo (x - 19)) 0
    let product ← d.mul? near
    let product ← if x < 20 then some product else product.mul? far
    return product.strip

def ofScientific? (cs : List Char) : Option Decimal := do
  let isMark (c : Char) := c == 'e' || c == 'E'
  let base ← ofPlain? (cs.takeWhile (!isMark ·))
  match cs.dropWhile (!isMark ·) with
  | _ :: '-' :: rest => shiftDown base (← Text.natural? 32 rest)
  | _ :: rest => shiftUp base (← Text.natural? 32 rest)
  | [] => none

def ofString? (s : String) : Option Decimal := ofPlain? s.toList

def ofNumeral? (s : String) : Option Decimal :=
  ofPlain? s.toList <|> ofScientific? s.toList

end PriceDesk.Decimal
