import PriceDesk.Desk.Run
import PriceDesk.Market.PairMap

namespace PriceDesk

namespace Floor

variable {ω α : Type}

def beginAll (now : Instant) (w : ω) :
    List (Instant → ω → Pending MarketError α × ω) → List (Pending MarketError α) × ω
  | [] => ([], w)
  | call :: calls =>
    let (p, w) := call now w
    let (ps, w) := beginAll now w calls
    (p :: ps, w)

def together (f : Floor ω) (calls : List (Instant → ω → Pending MarketError α × ω)) :
    List (Except MarketError α) × Floor ω :=
  let now := f.clock.now
  let (pending, world) := beginAll now f.world calls
  let ends := pending.map (·.conclude now)
  (ends.map (·.2), { f with world, clock := f.clock.advance ((ends.map (·.1)).foldl max now) })

def wait (f : Floor ω) (call : Instant → ω → Pending MarketError α × ω) :
    Except MarketError α × Floor ω :=
  let (p, world) := call f.clock.now f.world
  let (t, outcome) := p.conclude f.clock.now
  (outcome, { f with world, clock := f.clock.advance t })

end Floor

namespace Desk

variable {ω : Type}

abbrev Coverage (ω : Type) := Provider ω × Bool

def covering (pair : AssetPair) (ps : List (Provider ω))
    (listings : List (Except MarketError Listing)) : List (Coverage ω) :=
  (ps.zip listings).filterMap fun (p, listing) =>
    match listing with
    | .ok l =>
      if l.contains pair then some (p, false)
      else if l.containsReversed pair then some (p, true)
      else none
    | .error _ => none

/-- The direct providers with a capability that cover a pair. It is an error if none has it. -/
def coverage (s : Setup ω) (d : Desk ω) (pair : AssetPair) (c : Capability) :
    Except MarketError (List (Coverage ω)) × Desk ω :=
  let ps := s.registry.direct c
  if ps.isEmpty then (.error .noProvidersAvailable, d)
  else
    let (listings, d) := survey s d ps
    (.ok (covering pair ps listings), d)

def listedPair (pair : AssetPair) (isReversed : Bool) : AssetPair :=
  if isReversed then pair.reversed else pair

def quoteCall (s : Setup ω) (pair : AssetPair) :
    Coverage ω → Instant → ω → Pending MarketError Quotes × ω
  | (p, isReversed), now, w =>
    match p.pricing with
    | none =>
      ({ readyAt := some now,
         outcome := .error (.noProviderForNetwork p.network.name Capability.pricing.name) }, w)
    | some pricing =>
      (pricing.call (singleOrAll pricing.features (listedPair pair isReversed))).invoke p.id
        "get_pricing" s.quoteTimeout now w

def quoteFrom (pair : AssetPair) (isReversed : Bool) (answer : Quotes) :
    Except MarketError Quote :=
  match answer.get? (listedPair pair isReversed) with
  | none => .error (.pairNotSupported (listedPair pair isReversed).render)
  | some quote => if isReversed then quote.reversed else .ok quote

def keepSuccesses {α : Type} (results : List (Except MarketError α)) :
    Except MarketError (List α) :=
  let kept := results.filterMap Except.toOption
  if kept.isEmpty && !results.isEmpty then .error .allProvidersFailed else .ok kept

/-- The quotes for a pair of every direct provider that covers it, in the order of preference. -/
def quotesForPair (s : Setup ω) (d : Desk ω) (pair : AssetPair) :
    Except MarketError (List Quote) × Desk ω :=
  match coverage s d pair .pricing with
  | (.error e, d) => (.error e, d)
  | (.ok covered, d) =>
    let (answers, floor) := d.floor.together (covered.map (quoteCall s pair))
    let results := (covered.zip answers).map fun ((_, isReversed), answer) =>
      answer.bind (quoteFrom pair isReversed)
    (keepSuccesses results, { d with floor })

def mergeSingles (pairs : List AssetPair) (answers : List (Except MarketError Quotes)) :
    Except MarketError Quotes :=
  let found := (pairs.zip answers).map fun (pair, answer) =>
    (pair, answer.toOption.bind (·.get? pair))
  let merged : Quotes :=
    { quotes := found.filterMap (·.2)
      missed := found.filterMap fun (pair, quote) => if quote.isNone then some pair else none }
  let failed := answers.any fun | .ok _ => false | .error _ => true
  if merged.quotes.isEmpty && failed then .error .allProvidersFailed else .ok merged

/-- The prices of a network, from its preferred provider: in one call if that can serve them, or
else pair by pair. -/
def quotesOnNetwork (s : Setup ω) (d : Desk ω) (network : Network) (requested : RequestedPairs) :
    Except MarketError Quotes × Desk ω :=
  let nobody := MarketError.noProviderForNetwork network.name Capability.pricing.name
  match s.registry.preferred? network .pricing with
  | none => (.error nobody, d)
  | some p =>
    match p.pricing with
    | none => (.error nobody, d)
    | some pricing =>
      let ask (requested : RequestedPairs) :=
        (pricing.call requested).invoke p.id "get_pricing" s.quoteTimeout
      if pricing.features.supports requested then
        let (answer, floor) := d.floor.wait (ask requested)
        (answer, { d with floor })
      else
        match requested with
        | .all => (.error (.configuration s!"{network} cannot return all prices in one call"), d)
        | .pairs pairs =>
          let (answers, floor) := d.floor.together (pairs.map fun pair => ask (.single pair))
          (mergeSingles pairs answers, { d with floor })

def volumeCall (s : Setup ω) (pair : AssetPair) :
    Coverage ω → Instant → ω → Pending MarketError TradedVolumes × ω
  | (p, isReversed), now, w =>
    match p.volumes with
    | none =>
      ({ readyAt := some now,
         outcome := .error (.noProviderForNetwork p.network.name Capability.volume.name) }, w)
    | some volumes =>
      (volumes.call (.single (listedPair pair isReversed))).invoke p.id "get_volume"
        s.quoteTimeout now w

def volumeFrom (pair : AssetPair) (isReversed : Bool) (answer : TradedVolumes) :
    Except MarketError TradedVolume :=
  match answer.get? (listedPair pair isReversed) with
  | none => .error (.pairNotSupported (listedPair pair isReversed).render)
  | some volume => .ok volume

def collectVolumes (pair : AssetPair) (results : List (Except MarketError TradedVolume)) :
    Except MarketError PairVolumes := do
  let collected ← (results.filterMap Except.toOption).foldlM PairVolumes.add { pair }
  let failed := results.any fun | .ok _ => false | .error _ => true
  if collected.entries.isEmpty && failed then .error .allProvidersFailed else .ok collected

def volumesForPair (s : Setup ω) (d : Desk ω) (pair : AssetPair) :
    Except MarketError PairVolumes × Desk ω :=
  match coverage s d pair .volume with
  | (.error e, d) => (.error e, d)
  | (.ok covered, d) =>
    let (answers, floor) := d.floor.together (covered.map (volumeCall s pair))
    let results := (covered.zip answers).map fun ((_, isReversed), answer) =>
      answer.bind (volumeFrom pair isReversed)
    (collectVolumes pair results, { d with floor })

def orderBook (s : Setup ω) (d : Desk ω) (network : Network) (pair : AssetPair) (depth : Nat) :
    Except MarketError OrderBook × Desk ω :=
  let nobody := MarketError.noProviderForNetwork network.name Capability.orderBook.name
  match s.registry.preferred? network .orderBook with
  | none => (.error nobody, d)
  | some p =>
    match p.orderBook with
    | none => (.error nobody, d)
    | some ask =>
      let depth := OrderBook.depth depth s.orderBookCap
      let (answer, floor) :=
        d.floor.wait ((ask pair depth).invoke p.id "get_order_book" s.quoteTimeout)
      (answer.map (·.truncate depth), { d with floor })

def listingOf (s : Setup ω) (d : Desk ω) (p : Provider ω) : Except MarketError Listing × Desk ω :=
  let (listings, d) := survey s d [p]
  (listings.headD (.error .noProvidersAvailable), d)

def pairsOnNetwork (s : Setup ω) (d : Desk ω) (network : Network) : Listing × Desk ω :=
  match s.registry.preferred? network .assetPairs with
  | none => (.empty, d)
  | some p =>
    let (listing, d) := listingOf s d p
    (listing.toOption.getD .empty, d)

def allPairs (s : Setup ω) (d : Desk ω) : Listing × Desk ω :=
  let (listings, d) := survey s d (s.registry.direct .assetPairs)
  ((listings.filterMap Except.toOption).foldl (fun all l => all.extend l.pairs) .empty, d)

def providersForPair (s : Setup ω) (d : Desk ω) (pair : AssetPair) : List (Provider ω) × Desk ω :=
  let ps := s.registry.direct .assetPairs
  let (listings, d) := survey s d ps
  ((ps.zip listings).filterMap fun (p, listing) =>
     match listing with
     | .ok l => if l.contains pair then some p else none
     | .error _ => none, d)

end Desk

end PriceDesk
