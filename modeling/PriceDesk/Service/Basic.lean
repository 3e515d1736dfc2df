import PriceDesk.Config.Configuration
import PriceDesk.Desk.Aggregate
import PriceDesk.Desk.Rush
import PriceDesk.Rest.Adapter
import PriceDesk.Venue.Kind

namespace PriceDesk

structure Service where
  setup : Setup Street
  desk : Desk Street
  /-- Adapters apart from those in the registry, for questions to one exchange. -/
  adapters : List Adapter := []

namespace Service

def of (providers : List (Provider Street)) (paces : List Pace) (settings : Settings)
    (clock : Clock) : Service where
  setup :=
    { registry := .of providers
      options := settings.discovery
      listingTimeout := settings.timeout
      quoteTimeout := settings.timeout
      orderBookCap := settings.orderBookCap }
  desk := { floor := { world := .of paces, clock, listings := { ttl := settings.listingTtl } } }

def ofVenues (venues : List Venue) (settings : Settings) : Service :=
  .of (venues.mapIdx fun i v => v.provider i) (venues.map Venue.pace) settings {}

/-- The service of a configuration whose exchanges are reached at a server. A request takes at
most `patience`, or as long as the settings say. -/
def ofConfiguration (c : Configuration) (server : Server) (patience : Option Duration) :
    Except Adapter.Refusal Service := do
  (c.settings.validate).mapError .invalid
  let paces ← c.exchanges.mapM Adapter.pace?
  let timeout := patience.getD c.settings.timeout
  let adapters (offset : Nat) : List Adapter :=
    c.exchanges.mapIdx fun i e => .of e server timeout (offset + i)
  let service := Service.of ((adapters 0).map Adapter.provider) (paces ++ paces) c.settings
    { rehearsed := false }
  return { service with adapters := adapters c.exchanges.length }

def put {α : Type} (s : Service) (question : Setup Street → Desk Street → α × Desk Street) :
    α × Service :=
  let (answer, desk) := question s.setup s.desk
  (answer, { s with desk })

def ask {α : Type} (s : Service) (call : Call Street α) : Except MarketError α × Service :=
  let (answer, floor) := s.desk.floor.wait call.make
  (answer, { s with desk := { s.desk with floor } })

def now (s : Service) : Instant := s.desk.floor.clock.now

def known? (s : Service) (id : String) : Option Listing :=
  s.desk.floor.listings.peek id s.desk.floor.clock.wall

def setupRequiring (s : Service) (requirePricing : Bool) : Setup Street :=
  { s.setup with options := { s.setup.options with requirePricing } }

def apartTimeout : Duration := .ofSeconds 5

/-- Asks a desk of its own, over the same floor, for a price; tells also what that desk remembers
of the request. -/
def priceApart (s : Service) (requirePricing : Bool) (key : RequestKey) :
    (Option PriceResult × Option Completion) × Service :=
  let setup := { s.setupRequiring requirePricing with quoteTimeout := apartTimeout }
  let (result, apart) := s.desk.fresh.price setup key
  ((result, apart.lastResults.get? key), { s with desk := { s.desk with floor := apart.floor } })

def rush (s : Service) (visits : List Visit) (probeAfter : Duration) :
    (Rush Street × Duration) × Service :=
  let r := Rush.run s.setup s.desk visits probeAfter
  ((r, r.desk.floor.clock.now - s.now), { s with desk := r.desk })

def takeFeed (s : Service) : (Nat × List Completion) × Service :=
  s.put fun _ d => d.takeFeed

def takeRecord (s : Service) : List String × Service :=
  s.put fun _ d =>
    let (record, world) := d.floor.world.takeRecord
    (record, { d with floor := { d.floor with world } })

end Service

end PriceDesk
