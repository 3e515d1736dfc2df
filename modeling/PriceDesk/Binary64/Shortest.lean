import PriceDesk.Binary64.Basic

namespace PriceDesk.Binary64

structure Digits where
  digits : Nat
  exponent : Int
deriving DecidableEq, Repr

def compareScaled (a : Nat) (i : Int) (n : Nat) (j : Int) : Ordering :=
  compare (a * tenTo i.toNat * twoTo (-j).toNat) (n * twoTo j.toNat * tenTo (-i).toNat)

/-- Whether the decimal lies among the reals that round to `x`. The gap below a power of two is
half the gap above it, and the ends belong to an even mantissa. -/
def readsBack (x : Binary64) (d : Digits) : Bool :=
  let narrow := x.mantissa == twoTo 52 && -1074 < x.exponent
  let low := if narrow then 4 * x.mantissa - 1 else 4 * x.mantissa - 2
  let high := 4 * x.mantissa + 2
  let closed := x.mantissa % 2 == 0
  let below := compareScaled d.digits d.exponent low (x.exponent - 2)
  let above := compareScaled d.digits d.exponent high (x.exponent - 2)
  (below == .gt || (closed && below == .eq)) && (above == .lt || (closed && above == .eq))

def decimalScale (x : Binary64) : Int :=
  let bits : Int := Int.ofNat x.mantissa.log2 + x.exponent
  let guess := bits * 30103 / 100000
  let fits (k : Int) : Bool := compareScaled 1 k x.mantissa x.exponent == .gt
  match [guess - 1, guess, guess + 1, guess + 2].find? fits with
  | some k => k
  | none => guess + 3

/-- The best of the two neighbours of `x` on the grid of multiples of `10 ^ e` that read back: the
nearer one, and of two equally near the even one. -/
def onGrid (x : Binary64) (e : Int) : Option Digits :=
  let num := x.numerator * tenTo (-e).toNat
  let den := x.denominator * tenTo e.toNat
  let floor := num / den
  let down : Digits := ⟨floor, e⟩
  let up : Digits := ⟨floor + 1, e⟩
  match floor != 0 && x.readsBack down, x.readsBack up with
  | true, true => some ⟨Decimal.roundHalfEven num den, e⟩
  | true, false => some down
  | false, true => some up
  | false, false => none

def Digits.strip (d : Digits) : Digits :=
  go 20 d
where
  go : Nat → Digits → Digits
    | 0, d => d
    | n + 1, d =>
      if d.digits != 0 && d.digits % 10 == 0 then go n ⟨d.digits / 10, d.exponent + 1⟩ else d

def shortest (x : Binary64) : Digits :=
  if x.mantissa == 0 then ⟨0, 0⟩
  else
    let k := x.decimalScale
    let grids := (List.range 17).map fun n => k - Int.ofNat (n + 1)
    match grids.findSome? x.onGrid with
    | some d => d.strip
    | none =>
      ⟨x.mantissa * twoTo x.exponent.toNat * Nat.pow 5 (-x.exponent).toNat, min x.exponent 0⟩

def Digits.layout (d : Digits) : String :=
  let digits := Nat.toDigits 10 d.digits
  let point : Int := Int.ofNat digits.length + d.exponent
  let text : List Char :=
    if 0 ≤ d.exponent && point ≤ 16 then
      digits ++ List.replicate d.exponent.toNat '0' ++ ['.', '0']
    else if 0 < point && point ≤ 16 then
      digits.take point.toNat ++ '.' :: digits.drop point.toNat
    else if -5 < point && point ≤ 0 then
      ['0', '.'] ++ List.replicate (-point).toNat '0' ++ digits
    else
      let fraction := digits.drop 1
      let mark := if fraction.isEmpty then [] else '.' :: fraction
      digits.take 1 ++ mark ++ 'e' :: (toString (point - 1)).toList
  String.ofList text

def render (x : Binary64) : String :=
  if x.mantissa == 0 then "0.0" else x.shortest.layout

end PriceDesk.Binary64
