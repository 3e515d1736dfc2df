import PriceDesk.Decimal.Basic
import PriceDesk.Number.Power

namespace PriceDesk

/-- The number `mantissa * 2 ^ exponent`. -/
structure Binary64 where
  mantissa : Nat
  exponent : Int
deriving DecidableEq, Repr

namespace Binary64

def zero : Binary64 := ⟨0, -1074⟩

def numerator (x : Binary64) : Nat := x.mantissa * twoTo x.exponent.toNat

def denominator (x : Binary64) : Nat := twoTo (-x.exponent).toNat

/-- The number nearest to `num / den`, of two equally near the one with the even mantissa. There is
none if that is beyond the largest finite number. -/
def ofRatio? (num den : Nat) : Option Binary64 :=
  if num == 0 then some zero
  else
    let rough : Int := Int.ofNat num.log2 - Int.ofNat den.log2 - 53
    let scaled (q : Int) : Nat × Nat := (num * twoTo (-q).toNat, den * twoTo q.toNat)
    let (n, d) := scaled rough
    let fitted := if twoTo 53 ≤ n / d then rough + 1 else rough
    let q := max fitted (-1074)
    let (n, d) := scaled q
    let m := Decimal.roundHalfEven n d
    let (m, q) := if m == twoTo 53 then (twoTo 52, q + 1) else (m, q)
    if 971 < q then none else some ⟨m, q⟩

/-- The product with a power of ten that is itself rounded first, for exponents of at most 308. -/
def timesPowerOfTen? (x : Binary64) (k : Nat) : Option Binary64 := do
  let p ← ofRatio? (tenTo k) 1
  ofRatio? (x.numerator * p.numerator) (x.denominator * p.denominator)

/-- The quotient by a power of ten that is itself rounded first, for exponents of at most 308. -/
def overPowerOfTen? (x : Binary64) (k : Nat) : Option Binary64 := do
  let p ← ofRatio? (tenTo k) 1
  ofRatio? (x.numerator * p.denominator) (x.denominator * p.numerator)

/-- The number that `significand * 10 ^ exponent` is read as: the significand is rounded, then
multiplied or divided by the power of ten. There is none beyond the largest finite number. -/
def ofScientific? (significand : Nat) (exponent : Int) : Option Binary64 := do
  let x ← ofRatio? significand 1
  if x.mantissa == 0 then some zero
  else if 0 ≤ exponent then
    if exponent ≤ 308 then x.timesPowerOfTen? exponent.toNat else none
  else divide (-exponent).toNat 4 x
where
  /-- Divides by `10 ^ k`, at most 308 at a time; after a few such steps nothing is left. -/
  divide (k : Nat) : Nat → Binary64 → Option Binary64
    | 0, _ => some zero
    | n + 1, x =>
      if k ≤ 308 then x.overPowerOfTen? k
      else do divide (k - 308) n (← x.overPowerOfTen? 308)

end Binary64

end PriceDesk
