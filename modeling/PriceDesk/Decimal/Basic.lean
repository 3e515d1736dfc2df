import PriceDesk.Number.Power

namespace PriceDesk

/-- A decimal number with at most 28 places and a mantissa of at most 96 bits. -/
structure Decimal where
  negative : Bool
  mantissa : Nat
  scale : Nat
  mantissa_lt : mantissa < twoTo 96 := by decide
  scale_le : scale ≤ 28 := by decide
deriving DecidableEq, Repr

namespace Decimal

/-- The decimal with these parts, if they are in range. -/
def ofParts? (negative : Bool) (mantissa scale : Nat) : Option Decimal :=
  if h : mantissa < twoTo 96 ∧ scale ≤ 28 then some ⟨negative, mantissa, scale, h.1, h.2⟩ else none

def zero : Decimal := { negative := false, mantissa := 0, scale := 0 }

def one : Decimal := { negative := false, mantissa := 1, scale := 0 }

instance : Inhabited Decimal := ⟨zero⟩

def isZero (d : Decimal) : Bool := d.mantissa == 0

def abs (d : Decimal) : Decimal := { d with negative := false }

def unsignZero (d : Decimal) : Decimal := if d.isZero then d.abs else d

/-- The text of a decimal: all its places, at least one digit before the point, no exponent. -/
def render (d : Decimal) : String :=
  let digits := Nat.toDigits 10 d.mantissa
  let padded := List.replicate (d.scale + 1 - digits.length) '0' ++ digits
  let whole := padded.take (padded.length - d.scale)
  let places := padded.drop (padded.length - d.scale)
  let sign := if d.negative then ['-'] else []
  String.ofList (sign ++ whole ++ if d.scale == 0 then [] else '.' :: places)

instance : ToString Decimal := ⟨render⟩

/-- `num / den` to the nearest whole number; of two equally near the even one. -/
def roundHalfEven (num den : Nat) : Nat :=
  let q := num / den
  let r := num % den
  if 2 * r < den then q
  else if den < 2 * r then q + 1
  else if q % 2 == 0 then q else q + 1

def strip (d : Decimal) : Decimal :=
  if d.isZero then zero else go d.scale d
where
  go : Nat → Decimal → Decimal
    | 0, d => d
    | n + 1, d =>
      if d.scale ≠ 0 ∧ d.mantissa % 10 = 0 then
        go n { d with
          mantissa := d.mantissa / 10
          scale := d.scale - 1
          mantissa_lt := Nat.lt_of_le_of_lt (Nat.div_le_self _ _) d.mantissa_lt
          scale_le := Nat.le_trans (Nat.sub_le _ _) d.scale_le }
      else d

end Decimal

end PriceDesk
