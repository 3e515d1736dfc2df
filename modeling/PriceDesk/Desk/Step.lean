import PriceDesk.Decimal.Arithmetic
import PriceDesk.Desk.Basic

namespace PriceDesk

/-- Who loads listings. -/
inductive Owner where
  | flight (id : Nat)
  | caller (id : Nat)
deriving DecidableEq, Repr

/-- What may happen next. -/
inductive Action (ω : Type) where
  | request (key : RequestKey)
  | survey (providers : List (Provider ω))
  | lookup (owner : Owner) (index : Nat)
  | advance (flight : Nat)
  | collect (caller : Nat)
  | drop (caller : Nat)
  | tick (t : Instant)
  /-- Callers who do not wait and flights that do not matter any more are forgotten. -/
  | forget

namespace Desk

variable {ω : Type}

/-- What a flight has to do first. -/
def opening (s : Setup ω) (key : RequestKey) : Option Leg → Stage ω
  | none =>
    .surveying (Survey.of (Discovery.sources s.options s.registry key.pair key.network))
  | some leg => .choosing leg (askOrder leg) (.noProviderForNetwork leg.network.name "pricing")
where
  /-- Those who are asked for the price of a leg: the provider that was found comes first. -/
  askOrder (leg : Leg) : List (Provider ω) :=
    let ps := s.registry.onNetwork leg.network .pricing
    ps.filter (·.id == leg.provider) ++ ps.filter (·.id != leg.provider)

/-- Joins the flight of a request that is under way, or starts one. -/
def joinOrStart (s : Setup ω) (d : Desk ω) (key : RequestKey) (leg : Option Leg) :
    Nat × Desk ω :=
  match d.inFlight.lookup key with
  | some id => (id, d)
  | none =>
    (d.nextFlight,
     { d with
       flights := { id := d.nextFlight, key, stage := opening s key leg } :: d.flights
       inFlight := (key, d.nextFlight) :: d.inFlight
       nextFlight := d.nextFlight + 1 })

/-- Ends a flight: its request is no longer under way, and its result is remembered and
published. -/
def complete (d : Desk ω) (f : Flight ω) (result : PriceResult) : Desk ω :=
  let completion := { key := f.key, result : Completion }
  { d.setStage f.id (.done result) with
    inFlight := d.inFlight.filter (·.1 != f.key)
    lastResults := d.lastResults.insert completion
    feed := d.feed.push completion }

def notFound (s : Setup ω) (pair : AssetPair) : MarketError :=
  if (s.registry.having .pricing).isEmpty then .noProvidersAvailable
  else .pairNotSupported pair.render

def singleOrAll (features : PricingFeatures) (pair : AssetPair) : RequestedPairs :=
  if features.supports (.single pair) then .single pair else .all

def priceOf (leg : Leg) (provider : String) (quotes : Quotes) : PriceResult :=
  match quotes.get? leg.providerPair with
  | none =>
    .error (.providerResponse provider "get_pricing"
      s!"{leg.providerPair} missing from response")
  | some quote => do
    let quote ← if leg.isReversed then quote.reversed else .ok quote
    return { pair := leg.pair, price := quote.price, network := leg.network,
             isReversed := leg.isReversed }

def combine (pair : AssetPair) (first second : LatestPrice) : PriceResult :=
  match first.price.mul? second.price with
  | some price =>
    .ok { pair, price, network := first.network, isReversed := first.isReversed,
          via := some { asset := first.pair.asset2, network := second.network } }
  | none =>
    .error (.invalidPrice pair.render s!"overflow combining legs via {first.pair.asset2}")

def dispatch (s : Setup ω) (d : Desk ω) (f : Flight ω) : Option Match → Desk ω
  | none => d.complete f (.error (notFound s f.key.pair))
  | some (.plain leg) => d.setStage f.id (opening s f.key (some leg))
  | some (.converted first second) =>
    let (i, d) := joinOrStart s d
      { pair := first.pair, role := .firstLeg, network := f.key.network } (some first)
    let (j, d) := joinOrStart s d
      { pair := second.pair, role := .secondLeg, network := some second.network } (some second)
    d.setStage f.id (.combining i j)

def advance (s : Setup ω) (d : Desk ω) (f : Flight ω) : Option (Desk ω) :=
  match f.stage with
  | .surveying survey => do
    let listings ← Survey.results? survey
    let (found, _) :=
      Discovery.conclude s.options s.registry f.key.pair f.key.network listings
    return dispatch s d f found
  | .choosing _ [] failure => some (d.complete f (.error failure))
  | .choosing leg (p :: queue) _ =>
    match p.pricing with
    | none =>
      some (d.setStage f.id
        (.choosing leg queue (.noProviderForNetwork p.network.name Capability.pricing.name)))
    | some pricing =>
      let requested := singleOrAll pricing.features leg.providerPair
      let (call, world) :=
        (pricing.call requested).invoke p.id "get_pricing" s.quoteTimeout d.floor.clock.now
          d.floor.world
      some ({ d with floor := { d.floor with world } }.setStage f.id (.asking leg p call queue))
  | .asking leg p call queue => do
    let outcome ← call.poll d.floor.clock.now
    match outcome.bind (priceOf leg p.id) with
    | .ok price => return d.complete f (.ok price)
    | .error e =>
      return if e.isFinal then d.complete f (.error e)
        else d.setStage f.id (.choosing leg queue e)
  | .combining i j => do
    let first ← (← d.flight? i).stage.result?
    let second ← (← d.flight? j).stage.result?
    return d.complete f do combine f.key.pair (← first) (← second)
  | .done _ => none

def lookup (s : Setup ω) (d : Desk ω) (owner : Owner) (index : Nat) : Option (Desk ω) :=
  match owner with
  | .flight id => do
    let survey ← (← d.flight? id).stage.survey?
    let (survey, floor) ← Survey.step s.listingTimeout d.floor survey index
    return { d with floor }.setStage id (.surveying survey)
  | .caller id =>
    match d.caller? id with
    | some (.surveying survey) => do
      let (survey, floor) ← Survey.step s.listingTimeout d.floor survey index
      return { d with floor }.setCaller id (.surveying survey)
    | _ => none

/-- A caller goes away. Listings that it loads are free for others; a flight that it waits for
stays where it is. -/
def depart (d : Desk ω) (id : Nat) : Option (Desk ω) :=
  match d.caller? id with
  | some (.surveying survey) =>
    let floor := { d.floor with listings := Survey.drop survey d.floor.listings }
    some ({ d with floor }.setCaller id .gone)
  | some (.awaiting _) => some (d.setCaller id .gone)
  | _ => none

def admitCaller (d : Desk ω) (c : Caller ω) : Desk ω :=
  { d with callers := d.callers ++ [(d.nextCaller, c)], nextCaller := d.nextCaller + 1 }

def forget (d : Desk ω) : Desk ω :=
  let callers := d.callers.filter fun
    | (_, .awaiting _) | (_, .surveying _) => true
    | (_, .answered _) | (_, .gone) => false
  let awaited (id : Nat) : Bool :=
    callers.any (fun | (_, .awaiting f) => f == id | _ => false) ||
      d.flights.any (·.stage.legs.contains id)
  { d with callers, flights := d.flights.filter fun f => f.stage.result?.isNone || awaited f.id }

/-- One move of the desk. -/
def step (s : Setup ω) (d : Desk ω) : Action ω → Option (Desk ω)
  | .request key =>
    let (id, d) := joinOrStart s d key none
    some (d.admitCaller (.awaiting id))
  | .survey providers => some (d.admitCaller (.surveying (Survey.of providers)))
  | .lookup (.flight id) index =>
    if d.isAwaited id then lookup s d (.flight id) index else none
  | .lookup owner index => lookup s d owner index
  | .advance id => if d.isAwaited id then (d.flight? id).bind (advance s d) else none
  | .collect id =>
    match d.caller? id with
    | some (.awaiting f) => do
      let result ← (← d.flight? f).stage.result?
      return d.setCaller id (.answered result)
    | _ => none
  | .drop id => depart d id
  | .tick t =>
    if d.floor.clock.now < t then
      some { d with floor := { d.floor with clock := d.floor.clock.advance t } }
    else none
  | .forget => some d.forget

end Desk

end PriceDesk
