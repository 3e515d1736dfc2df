import PriceDesk.Discovery.Diagnostics
import PriceDesk.Discovery.Match
import PriceDesk.Provider.Registry

namespace PriceDesk

structure DiscoveryOptions where
  reversalEnabled : Bool := true
  conversionEnabled : Bool := true
  intermediaries : List Asset := [.of "BTC", .of "USD", .of "USDT"]
  requirePricing : Bool := true
deriving DecidableEq

structure Candidate where
  provider : String
  network : Network
  listing : Listing

namespace Discovery

def leg (c : Candidate) (pair : AssetPair) (isReversed : Bool) : Leg :=
  { provider := c.provider, network := c.network, pair, isReversed }

def findDirect (pair : AssetPair) (cs : List Candidate) : Option Leg :=
  (cs.find? (·.listing.contains pair)).map (leg · pair false)

def findReversed (pair : AssetPair) (cs : List Candidate) : Option Leg :=
  (cs.find? (·.listing.containsReversed pair)).map (leg · pair true)

def findLeg (pair : AssetPair) (cs : List Candidate) : Option Leg :=
  (findDirect pair cs).or (findReversed pair cs)

def through (pair : AssetPair) (cs : List Candidate) (intermediary : Asset) : Option Match :=
  if pair.has intermediary then none
  else do
    let first ← findLeg ⟨pair.asset1, intermediary⟩ cs
    let second ← findLeg ⟨intermediary, pair.asset2⟩ cs
    return .converted first second

def findConverted (pair : AssetPair) (cs : List Candidate) (intermediaries : List Asset) :
    Option Match :=
  intermediaries.findSome? (through pair cs)

/-- The match that the three passes find. -/
def search (options : DiscoveryOptions) (pair : AssetPair) (cs : List Candidate) : Option Match :=
  ((findDirect pair cs).map .plain).or
    ((if options.reversalEnabled then (findReversed pair cs).map .plain else none).or
      (if options.conversionEnabled then findConverted pair cs options.intermediaries else none))

variable {ω : Type}

def considered (registry : Registry ω) : Option Network → List (Provider ω)
  | some network => registry.onNetwork network .assetPairs
  | none => registry.direct .assetPairs

def isPriced (options : DiscoveryOptions) (registry : Registry ω) (p : Provider ω) : Bool :=
  !options.requirePricing || (registry.preferred? p.network .pricing).isSome

/-- The providers whose listings discovery loads for a pair: none for a degenerate pair. -/
def sources (options : DiscoveryOptions) (registry : Registry ω) (pair : AssetPair)
    (network : Option Network) : List (Provider ω) :=
  if pair.isDegenerate then []
  else (considered registry network).filter (isPriced options registry)

/-- The attempts that a search leaves, candidate by candidate. Candidates after the one of a match
without conversion are not reached. -/
def walk (found : Option Match) : List Candidate → List Attempt
  | [] => []
  | c :: cs =>
    match found with
    | none => .skip c.provider .notListed :: walk found cs
    | some m =>
      if (m.legs.map (·.provider)).contains c.provider then
        .matching c.provider :: if m.isConverted then walk found cs else []
      else .skip c.provider .notListed :: walk found cs

/-- What discovery finds, and its diagnostics, once every listing of the `sources` is there or has
failed. -/
def conclude (options : DiscoveryOptions) (registry : Registry ω) (pair : AssetPair)
    (network : Option Network) (listings : List (Except MarketError Listing)) :
    Option Match × Diagnostics :=
  if pair.isDegenerate then (none, {})
  else
    let unpriced := (considered registry network).filter (!isPriced options registry ·)
    let loaded := (sources options registry pair network).zip listings
    let candidates := loaded.filterMap fun (p, listing) =>
      listing.toOption.map fun listing =>
        { provider := p.id, network := p.network, listing : Candidate }
    let failures := loaded.filterMap fun (p, listing) =>
      match listing with
      | .ok _ => none
      | .error e => some (Attempt.skip p.id (.pairsUnavailable e.message))
    let found := search options pair candidates
    (found,
     ⟨unpriced.map (fun p => .skip p.id .noPricingProvider) ++ failures ++ walk found candidates⟩)

end Discovery

end PriceDesk
