import PriceDesk.Venue.Scripted
import PriceDesk.Venue.Simulated

namespace PriceDesk

inductive Venue where
  | simulated (venue : SimulatedVenue) (pace : Pace)
  | scripted (venue : ScriptedVenue)

namespace Venue

def id : Venue → String
  | .simulated v _ => v.id
  | .scripted v => v.id

def pace : Venue → Pace
  | .simulated _ pace => pace
  | .scripted _ => .free

def provider : Venue → Nat → Provider Street
  | .simulated v _, i => v.provider i
  | .scripted v, i => v.provider i

def isCounting : Venue → Bool
  | .simulated _ _ => true
  | .scripted _ => false

end Venue

end PriceDesk
