import PriceDesk.Pacing.Throttle

namespace PriceDesk

/-- What is known of one provider. -/
structure Tally where
  listing : Nat := 0
  pricing : Nat := 0
  orderBook : Nat := 0
  volume : Nat := 0
  pace : Pace := .free

/-- Every provider's tally, by its number, and the record of calls, the latest first. -/
structure Street where
  tallies : List Tally
  record : List String := []
  lost : Bool := false

namespace Street

def of (paces : List Pace) : Street := { tallies := paces.map fun pace => { pace } }

def tally (s : Street) (i : Nat) : Tally := s.tallies.getD i {}

def modify (s : Street) (i : Nat) (f : Tally → Tally) : Street :=
  { s with tallies := s.tallies.modify i f }

def note (s : Street) (line : String) : Street := { s with record := line :: s.record }

def takeRecord (s : Street) : List String × Street :=
  (s.record.reverse, { s with record := [] })

def countListing (s : Street) (i : Nat) : Street :=
  s.modify i fun t => { t with listing := t.listing + 1 }

def countPricing (s : Street) (i : Nat) : Street :=
  s.modify i fun t => { t with pricing := t.pricing + 1 }

def countOrderBook (s : Street) (i : Nat) : Street :=
  s.modify i fun t => { t with orderBook := t.orderBook + 1 }

def countVolume (s : Street) (i : Nat) : Street :=
  s.modify i fun t => { t with volume := t.volume + 1 }

def mustWait (i : Nat) (tier : Tier) (now : Instant) (s : Street) : Option Bool :=
  ((s.tally i).pace.timeUntilSafe? tier now).map (0 < ·)

/-- Paces one request of a provider: when it may go out. A request whose caller is lost does not go
out at any instant that can be told. -/
def pace (s : Street) (i : Nat) (tier : Tier) (now : Instant) : Instant × Street :=
  match (s.tally i).pace.acquire? tier now with
  | some (t, pace) => (t, s.modify i fun tally => { tally with pace })
  | none => (now + Instant.limit, { s with lost := true })

theorem record_pace (s : Street) (i : Nat) (tier : Tier) (now : Instant) :
    (s.pace i tier now).2.record = s.record := by
  unfold pace
  cases (s.tally i).pace.acquire? tier now <;> rfl

end Street

end PriceDesk
