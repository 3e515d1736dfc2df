import PriceDesk.Decimal.Basic

namespace PriceDesk.Decimal

/-- Drops the fewest digits that bring `m` below 2^96 and the places to at most 28, rounding what
is dropped half to even. There is no result if that takes more digits than there are places. -/
def fitProduct (negative : Bool) (m s : Nat) : Option Decimal := do
  let k ← (List.range 64).find? fun k => s ≤ 28 + k && m / tenTo k < twoTo 96
  let k := if roundHalfEven m (tenTo k) < twoTo 96 then k else k + 1
  if s < k then none
  else ofParts? negative (roundHalfEven m (tenTo k)) (s - k)

/-- The product of two decimals, if its whole part fits.

A zero factor gives plain zero. Two mantissas of at most 32 bits leave only the places to be cut,
and a product that vanishes there loses its sign; otherwise it keeps it. -/
def mul? (a b : Decimal) : Option Decimal :=
  if a.isZero || b.isZero then some zero
  else
    let negative := a.negative != b.negative
    let m := a.mantissa * b.mantissa
    let s := a.scale + b.scale
    if a.mantissa < twoTo 32 && b.mantissa < twoTo 32 then
      if 47 < s then some zero
      else if 28 < s then
        (ofParts? negative (roundHalfEven m (tenTo (s - 28))) 28).map unsignZero
      else ofParts? negative m s
    else if twoTo 96 ≤ m || 28 < s then fitProduct negative m s
    else ofParts? negative m s

/-- Long division of one by a mantissa: the quotient so far, the remainder, the places the quotient
has (negative while digits before the point are missing) and whether a remainder was ever left. -/
structure Division where
  quotient : Nat
  remainder : Nat
  places : Int
  inexact : Bool

inductive Division.Round where
  | full (d : Division)
  | partly (d : Division)
  | overflow

/-- One round of long division by `m`, which appends `p` digits to the quotient. A quotient that
outgrows 96 bits in its last digit gives that digit up, rounding half to even. -/
def Division.append (d : Division) (m p : Nat) : Division.Round :=
  let shifted := d.quotient * tenTo p
  let q := shifted + d.remainder * tenTo p / m
  let r := d.remainder * tenTo p % m
  let places := d.places + Int.ofNat p
  if twoTo 96 ≤ shifted then .overflow
  else if twoTo 96 ≤ q then
    let up := 5 < q % 10 || (q % 10 == 5 && (r != 0 || q / 10 % 2 == 1))
    .full { d with
      quotient := if up then q / 10 + 1 else q / 10, remainder := r, places := places - 1 }
  else .partly { d with quotient := q, remainder := r, places := places }

def Division.round (d : Division) (m : Nat) : Division :=
  let up := m < 2 * d.remainder || (2 * d.remainder == m && d.quotient % 2 == 1)
  let q := if up then d.quotient + 1 else d.quotient
  if q == twoTo 96 then { d with quotient := q / 10 + 1, places := d.places - 1 }
  else { d with quotient := q }

def Division.room (d : Division) : Option Nat :=
  [9, 8, 7, 6, 5, 4, 3, 2, 1].find? fun p =>
    d.places + Int.ofNat p ≤ 28 && d.quotient * tenTo p < twoTo 96

/-- Produces digits of `1 / m` until the division is exact or no further digit fits. There is no
result if a round overflows. The fuel bounds the rounds. -/
def divideOn (m : Nat) : Nat → Division → Option Division
  | 0, _ => none
  | fuel + 1, d =>
    let proceed (d : Division) (p : Nat) : Option Division :=
      match d.append m p with
      | .overflow => none
      | .full d => some d
      | .partly d => divideOn m fuel d
    if d.remainder == 0 then
      if 0 ≤ d.places then some d else proceed d (min 9 (-d.places).toNat)
    else
      let d := { d with inexact := true }
      match d.room with
      | some p => proceed d p
      | none => some (d.round m)

/-- Takes trailing zeros off a quotient in blocks of eight, four, two and one. A block is tried only
where the binary form of the quotient ends in as many zero bits (for eight digits: 32). -/
def dropZeroBlocks (q s : Nat) : Nat × Nat :=
  let (q, s) := eights 4 (q, s)
  let (q, s) := if q % 16 == 0 && 4 ≤ s && q % tenTo 4 == 0 then (q / tenTo 4, s - 4) else (q, s)
  let (q, s) := if q % 4 == 0 && 2 ≤ s && q % 100 == 0 then (q / 100, s - 2) else (q, s)
  if q % 2 == 0 && 1 ≤ s && q % 10 == 0 then (q / 10, s - 1) else (q, s)
where
  eights : Nat → Nat × Nat → Nat × Nat
    | 0, d => d
    | n + 1, (q, s) =>
      if q % twoTo 32 == 0 && 8 ≤ s && q % tenTo 8 == 0 then eights n (q / tenTo 8, s - 8)
      else (q, s)

def reciprocal? (d : Decimal) : Option Decimal := do
  if d.isZero then none
  let m := d.mantissa
  let quotient ← divideOn m 64
    { quotient := 1 / m, remainder := 1 % m, places := -(d.scale : Int), inexact := false }
  if quotient.places < 0 then none
  let places := quotient.places.toNat
  let (q, s) :=
    if quotient.inexact then dropZeroBlocks quotient.quotient places
    else (quotient.quotient, places)
  (ofParts? d.negative q s).map unsignZero

end PriceDesk.Decimal
