import PriceDesk.Time.Duration

namespace PriceDesk

/-- The clock that wakes callers, and the clock by which the age of values is measured. -/
structure Clock where
  now : Instant := 0
  wall : Instant := 0
  rehearsed : Bool := true
deriving Repr

namespace Clock

def advance (c : Clock) (t : Instant) : Clock :=
  { c with
    now := max c.now t
    wall := if c.rehearsed then c.wall else c.wall + (t - c.now) }

def pass (c : Clock) (d : Duration) : Clock := { c with wall := c.wall + d }

end Clock

/-- How a system of tasks is run. -/
structure Schedule (σ : Type) where
  round : σ → Bool × σ
  wakes : σ → List Instant
  now : σ → Instant
  tick : Instant → σ → σ

namespace Schedule

variable {σ : Type}

def next? (sched : Schedule σ) (s : σ) : Option Instant :=
  ((sched.wakes s).filter (sched.now s < ·)).min?

def run (sched : Schedule σ) : Nat → σ → σ
  | 0, s => s
  | fuel + 1, s =>
    match sched.round s with
    | (true, s) => run sched fuel s
    | (false, s) =>
      match sched.next? s with
      | some t => run sched fuel (sched.tick t s)
      | none => s

end Schedule

end PriceDesk
