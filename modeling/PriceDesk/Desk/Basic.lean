import PriceDesk.Desk.LastResults
import PriceDesk.Discovery.Search
import PriceDesk.Memo.Lookup

namespace PriceDesk

/-- What does not change while the desk works. -/
structure Setup (ω : Type) where
  registry : Registry ω
  options : DiscoveryOptions := {}
  listingTimeout : Duration
  quoteTimeout : Duration
  orderBookCap : Nat := OrderBook.defaultCap

/-- The surroundings of the desk: the world of the providers, the time, and the listings. -/
structure Floor (ω : Type) where
  world : ω
  clock : Clock := {}
  listings : Memo String Listing

abbrev Survey (ω : Type) := List (Provider ω × Lookup MarketError Listing)

/-- Where a flight stands. -/
inductive Stage (ω : Type) where
  | surveying (survey : Survey ω)
  /-- It will ask the first of these providers for a price of the leg, and fails without one. -/
  | choosing (leg : Leg) (queue : List (Provider ω)) (failure : MarketError)
  | asking (leg : Leg) (provider : Provider ω) (call : Pending MarketError Quotes)
      (queue : List (Provider ω))
  | combining (first second : Nat)
  | done (result : PriceResult)

/-- A request that is under way or has ended. -/
structure Flight (ω : Type) where
  id : Nat
  key : RequestKey
  stage : Stage ω

/-- Somebody who waits. -/
inductive Caller (ω : Type) where
  | awaiting (flight : Nat)
  | surveying (survey : Survey ω)
  | answered (result : PriceResult)
  | gone

/-- The desk and those who wait for it. -/
structure Desk (ω : Type) where
  floor : Floor ω
  flights : List (Flight ω) := []
  inFlight : List (RequestKey × Nat) := []
  callers : List (Nat × Caller ω) := []
  lastResults : LastResults := { capacity := LastResults.defaultCapacity }
  feed : Feed := {}
  nextFlight : Nat := 0
  nextCaller : Nat := 0

namespace Stage

variable {ω : Type}

def result? : Stage ω → Option PriceResult
  | .done r => some r
  | _ => none

def survey? : Stage ω → Option (Survey ω)
  | .surveying s => some s
  | _ => none

def legs : Stage ω → List Nat
  | .combining first second => [first, second]
  | _ => []

end Stage

namespace Survey

variable {ω : Type}

def of (ps : List (Provider ω)) : Survey ω :=
  ps.map fun p =>
    match p.listing with
    | some _ => (p, .idle)
    | none => (p, .done (.error (.noProviderForNetwork p.network.name Capability.assetPairs.name)))

def results? (s : Survey ω) : Option (List (Except MarketError Listing)) :=
  s.mapM (·.2.result?)

def wakes (s : Survey ω) : List Instant := s.flatMap (·.2.wakes)

def step (timeout : Duration) (f : Floor ω) (s : Survey ω) (i : Nat) :
    Option (Survey ω × Floor ω) := do
  let (p, lookup) ← s[i]?
  let call ← p.listing
  let start := call.invoke p.id "get_asset_pairs" timeout f.clock.now
  let (lookup, listings, world) ← lookup.step start p.id f.clock f.listings f.world
  return (s.set i (p, lookup), { f with world, listings })

def drop (s : Survey ω) (listings : Memo String Listing) : Memo String Listing :=
  s.foldl (fun m (p, lookup) => lookup.drop p.id m) listings

end Survey

namespace Desk

variable {ω : Type}

def flight? (d : Desk ω) (id : Nat) : Option (Flight ω) := d.flights.find? (·.id == id)

def caller? (d : Desk ω) (id : Nat) : Option (Caller ω) := d.callers.lookup id

def restage (id : Nat) (stage : Stage ω) : List (Flight ω) → List (Flight ω)
  | [] => []
  | f :: fs => if f.id == id then { f with stage } :: fs else f :: restage id stage fs

def setStage (d : Desk ω) (id : Nat) (stage : Stage ω) : Desk ω :=
  { d with flights := restage id stage d.flights }

def setCaller (d : Desk ω) (id : Nat) (c : Caller ω) : Desk ω :=
  { d with callers := d.callers.map fun (i, old) => if i == id then (i, c) else (i, old) }

def inFlightCount (d : Desk ω) : Nat := d.inFlight.length

/-- Whether somebody waits for a flight, directly or as a leg. -/
def isAwaited (d : Desk ω) (id : Nat) : Bool :=
  let direct (id : Nat) : Bool := d.callers.any fun
    | (_, .awaiting f) => f == id
    | _ => false
  direct id || d.flights.any fun f => f.stage.legs.contains id && direct f.id

end Desk

end PriceDesk
