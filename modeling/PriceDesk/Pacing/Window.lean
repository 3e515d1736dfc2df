import PriceDesk.Number.Power
import PriceDesk.Time.Duration

namespace PriceDesk

inductive Tier where
  | anonymous
  | authenticated
deriving DecidableEq, Repr

/-- At most `maximum` requests within a trailing window. -/
structure WindowPolicy where
  maximum : Nat
  window : Duration
deriving DecidableEq, Repr

namespace WindowPolicy

def of (maximum : Nat) (window : Duration) : WindowPolicy := ⟨max 1 maximum, window⟩

def admitted (p : WindowPolicy) : Nat := max 1 p.maximum

def covers (p : WindowPolicy) (now hit : Instant) : Bool := now - hit < p.window

end WindowPolicy

/-- A limiter with one window for each tier and one list of attempts. -/
structure Limiter where
  anonymous : WindowPolicy
  authenticated : WindowPolicy
  pause : Duration
  hits : List Instant := []

namespace Limiter

def minPause : Duration := .ofMillis 50

def maxPause : Duration := .ofSeconds 1

/-- The limiter with a policy for each tier. Its pause is the share of the anonymous window that
falls to one request, within bounds. The share is taken by a count of 32 bits, so a limiter whose
count has all of those bits clear cannot be built. -/
def ofTiers? (anonymous authenticated : WindowPolicy) : Option Limiter :=
  match anonymous.admitted % twoTo 32 with
  | 0 => none
  | n + 1 =>
    some
      { anonymous
        authenticated
        pause := min maxPause (max minPause (anonymous.window / (n + 1))) }

def ofPolicy? (policy : WindowPolicy) : Option Limiter := ofTiers? policy policy

def policy (l : Limiter) : Tier → WindowPolicy
  | .anonymous => l.anonymous
  | .authenticated => l.authenticated

def live (l : Limiter) (tier : Tier) (now : Instant) : List Instant :=
  l.hits.filter ((l.policy tier).covers now)

def isSafe (l : Limiter) (tier : Tier) (now : Instant) : Bool × Limiter :=
  let recorded := { l with hits := l.hits ++ [now] }
  let kept := recorded.live tier now
  (kept.length ≤ (l.policy tier).admitted, { l with hits := kept })

/-- How long a caller has to wait, unless the wait would end at an instant that cannot be told. -/
def timeUntilSafe? (l : Limiter) (tier : Tier) (now : Instant) : Option Duration :=
  let live := (l.live tier now).mergeSort
  let policy := l.policy tier
  if live.length < policy.admitted then some 0
  else
    -- The attempt itself will be one more.
    let mustExpire := live.length + 1 - policy.admitted
    (live[mustExpire - 1]?.bind (·.after? policy.window)).map (· - now)

def hitCount (l : Limiter) (tier : Tier) (now : Instant) : Nat := (l.live tier now).length

end Limiter

end PriceDesk
