import PriceDesk.Time.Duration

namespace PriceDesk

/-- A call that has begun. -/
structure Pending (ε α : Type) where
  readyAt : Option Instant
  outcome : Except ε α
  cutoff : Option (Instant × ε) := none

namespace Pending

variable {ε α : Type}

def poll (p : Pending ε α) (now : Instant) : Option (Except ε α) :=
  if p.readyAt.any (· ≤ now) then some p.outcome
  else p.cutoff.bind fun (t, e) => if t ≤ now then some (.error e) else none

def wakes (p : Pending ε α) : List Instant :=
  p.readyAt.toList ++ (p.cutoff.map (·.1)).toList

def earliest? (ts : List Instant) : Option Instant := ts.min?

/-- When the call ends, and how, for a caller who waits. A call that never ends counts as ended. -/
def conclude (p : Pending ε α) (now : Instant) : Instant × Except ε α :=
  match p.poll now with
  | some r => (now, r)
  | none =>
    let t := (earliest? p.wakes).getD now
    (t, (p.poll t).getD p.outcome)

end Pending

end PriceDesk
