import PriceDesk.Pacing.Throttle

namespace PriceDesk

inductive RateLimitPlan where
  | unlimited
  | perSecond (requests seconds : Nat)
  /-- So many requests in so many minutes, and limits of their own for callers without
  credentials. -/
  | perMinute (requests minutes : Nat) (anonymousRequests anonymousMinutes : Option Nat)
deriving DecidableEq, Repr

namespace RateLimitPlan

def isValid : RateLimitPlan → Bool
  | unlimited => true
  | perSecond requests seconds => requests != 0 && seconds != 0
  | perMinute requests minutes anonymousRequests anonymousMinutes =>
    requests != 0 && minutes != 0 && anonymousRequests != some 0 && anonymousMinutes != some 0

def minutes? (minutes : Nat) : Option Duration :=
  if minutes * 60 < twoTo 64 then some (.ofSeconds (minutes * 60)) else none

def secondLimiter? (requests seconds : Nat) : Option Limiter :=
  Limiter.ofPolicy? (.of requests (.ofSeconds seconds))

def minuteLimiter? (requests minutes : Nat) : Option Limiter := do
  Limiter.ofPolicy? (.of requests (← minutes? minutes))

def tieredLimiter? (anonymousRequests anonymousMinutes requests minutes : Nat) :
    Option Limiter := do
  Limiter.ofTiers? (.of anonymousRequests (← minutes? anonymousMinutes))
    (.of requests (← minutes? minutes))

def pace? : RateLimitPlan → Option Pace
  | unlimited => some .free
  | perSecond requests seconds => (secondLimiter? requests seconds).map .windowed
  | perMinute requests minutes none none => (minuteLimiter? requests minutes).map .windowed
  | perMinute requests minutes anonymousRequests anonymousMinutes =>
    (tieredLimiter? (anonymousRequests.getD requests) (anonymousMinutes.getD minutes) requests
      minutes).map .windowed

end RateLimitPlan

end PriceDesk
