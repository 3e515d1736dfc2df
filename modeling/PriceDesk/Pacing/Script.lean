import PriceDesk.Pacing.Throttle

namespace PriceDesk

def atOrLast? {α : Type} (script : List α) (position : Nat) : Option α :=
  script[min position (script.length - 1)]?

structure PacingScript where
  waits : List Duration
  safe : List Bool
  waitsAsked : Nat := 0
  safeAsked : Nat := 0
  log : List String := []

namespace PacingScript

def tierText : Tier → String
  | .anonymous => "(auth=false)"
  | .authenticated => "(auth=true)"

def gauge : Gauge PacingScript where
  timeUntilSafe? tier _ s :=
    let wait := (atOrLast? s.waits s.waitsAsked).getD 0
    (some wait,
     { s with
       waitsAsked := s.waitsAsked + 1
       log := s.log ++ [s!"time_until_safe{tierText tier}={wait.millis}"] })
  isSafe tier _ s :=
    let safe := (atOrLast? s.safe s.safeAsked).getD true
    (safe,
     { s with
       safeAsked := s.safeAsked + 1
       log := s.log ++ [s!"is_safe{tierText tier}={safe}"] })
  rest s := (.ofMillis 1, { s with log := s.log ++ ["limit"] })

def run (waits : List Duration) (safe : List Bool) (tier : Tier) :
    Option (Duration × List String) :=
  -- A caller moves five times from a question to the next one.
  match Throttle.run gauge tier (5 * (safe.length + 1)) .asking 0 { waits, safe } with
  | (.admitted now, _, s) => some (now, s.log)
  | _ => none

end PacingScript

end PriceDesk
