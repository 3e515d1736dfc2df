import PriceDesk.Number.Power

namespace PriceDesk

/-- A length of time, in nanoseconds. -/
abbrev Duration := Nat

/-- A point in time, in nanoseconds after the start of the clock. -/
abbrev Instant := Nat

namespace Duration

def ofMillis (n : Nat) : Duration := n * 1000000

def ofSeconds (n : Nat) : Duration := n * 1000000000

def millis (d : Duration) : Nat := d / 1000000

def millisUp (d : Duration) : Nat := (d + 999999) / 1000000

/-- A number of units written with its fraction, of which trailing zeros are left out. -/
def inUnit (d unit places : Nat) (name : String) : String :=
  let digits := Nat.toDigits 10 (d % unit)
  let padded := List.replicate (places - digits.length) '0' ++ digits
  let fraction := (padded.reverse.dropWhile (· == '0')).reverse
  toString (d / unit) ++ (if fraction.isEmpty then "" else "." ++ String.ofList fraction) ++ name

def render (d : Duration) : String :=
  if 1000000000 ≤ d then inUnit d 1000000000 9 "s"
  else if 1000000 ≤ d then inUnit d 1000000 6 "ms"
  else if 1000 ≤ d then inUnit d 1000 3 "µs"
  else toString d ++ "ns"

end Duration

namespace Instant

/-- The first instant that cannot be told any more: its seconds do not fit 63 bits. -/
def limit : Instant := Duration.ofSeconds (twoTo 63)

/-- The instant after a time, if it can be told. -/
def after? (t : Instant) (d : Duration) : Option Instant :=
  if t + d < limit then some (t + d) else none

end Instant

end PriceDesk
