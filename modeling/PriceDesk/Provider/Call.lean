import PriceDesk.Market.Error
import PriceDesk.Time.Pending

namespace PriceDesk

/-- An answer and the time that it takes; some answers never come. -/
structure Reply (α : Type) where
  delay : Option Duration
  outcome : Except MarketError α

namespace Reply

variable {α β : Type}

def now (outcome : Except MarketError α) : Reply α := ⟨some 0, outcome⟩

def map (f : α → β) (r : Reply α) : Reply β := ⟨r.delay, r.outcome.map f⟩

end Reply

abbrev Call (ω α : Type) := Option Duration → Instant → ω → Reply α × ω

namespace Call

variable {ω α : Type}

def invoke (call : Call ω α) (provider method : String) (timeout : Duration) (now : Instant)
    (w : ω) : Pending MarketError α × ω :=
  let (reply, w) := call (some timeout) now w
  let outcome :=
    match reply.outcome, reply.delay with
    | .error (.timeout provider method _), some delay => .error (.timeout provider method delay)
    | outcome, _ => outcome
  ({ readyAt := reply.delay.map (now + ·)
     outcome
     cutoff := some (now + timeout, .timeout provider method timeout) }, w)

def make (call : Call ω α) (now : Instant) (w : ω) : Pending MarketError α × ω :=
  let (reply, w) := call none now w
  ({ readyAt := reply.delay.map (now + ·), outcome := reply.outcome }, w)

end Call

end PriceDesk
