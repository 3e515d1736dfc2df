import PriceDesk.CommandLine.Arguments
import PriceDesk.Service.Basic

namespace PriceDesk

namespace Command

def pairOf (word : String) : Except String AssetPair :=
  (AssetPair.ofString? word).mapError fun e => s!"'{word}' is not a pair: " ++ e.message

def describeLeg (l : Leg) (via : Option Asset) (second : Option Json) : Json :=
  .ofMembers
    [("provider", .str l.provider), ("network", l.network.toJson),
     ("pair", l.providerPair.toJson), ("is_reversed", .bool l.isReversed),
     ("via", .orNull (via.map Asset.toJson)), ("second_leg", .orNull second)]

def describe (m : Match) : Json :=
  describeLeg m.first m.intermediary? (m.second?.map (describeLeg · none none))

def discovered (pair : AssetPair) (found : Option Match) (diagnostics : Diagnostics) : Json :=
  .ofMembers
    [("pair", pair.toJson), ("match", .orNull (found.map describe)),
     ("skipped", .arr (diagnostics.skips.map fun (provider, reason) =>
       .ofMembers [("provider", .str provider), ("reason", .str reason.message)]))]

def priceRow (pair : AssetPair) : PriceResult → Json
  | .ok latest => latest.toJson
  | .error e =>
    .ofMembers
      [("pair", pair.toJson), ("error", .str e.message), ("retryable", .bool (!e.isFinal))]

def answerOf {α : Type} (toJson : α → Json) (result : Except MarketError α) :
    Except String Json :=
  match result with
  | .ok a => .ok (toJson a)
  | .error e => .error e.message

def run (s : Service) : Command → Except String Json × Service
  | .discover word network =>
    match pairOf word with
    | .error text => (.error text, s)
    | .ok pair =>
      let ((found, diagnostics), s) := s.put (Desk.discover · · pair (network.map .of))
      (.ok (discovered pair found diagnostics), s)
  | .price words network =>
    match words.mapM pairOf with
    | .error text => (.error text, s)
    | .ok wanted =>
      let keys := wanted.map fun pair => { pair, network := network.map .of : RequestKey }
      let (results, s) := s.put (Desk.prices · · keys)
      (.ok (.arr ((wanted.zip (results.filterMap id)).map fun (pair, r) => priceRow pair r)), s)
  | .quotes word network =>
    match pairOf word with
    | .error text => (.error text, s)
    | .ok pair =>
      let (result, s) := s.put (Desk.quotesForPair · · pair)
      let isWanted (q : Quote) : Bool := network.all fun n => q.network == .of n
      (answerOf (fun quotes => .arr ((quotes.filter isWanted).map Quote.toJson)) result, s)
  | .volumes word =>
    match pairOf word with
    | .error text => (.error text, s)
    | .ok pair =>
      let (result, s) := s.put (Desk.volumesForPair · · pair)
      (answerOf PairVolumes.toJson result, s)
  | .orderBook word network depth =>
    match pairOf word with
    | .error text => (.error text, s)
    | .ok pair =>
      let (result, s) := s.put (Desk.orderBook · · (.of network) pair depth)
      (answerOf OrderBook.toJson result, s)
  | .pairs name withPrices =>
    let network := Network.of name
    if !s.setup.registry.networks.contains network then
      (.error s!"no exchange is configured for network '{network}'", s)
    else if withPrices then
      let (result, s) := s.put (Desk.quotesOnNetwork · · network .all)
      (answerOf Quotes.toJson result, s)
    else
      let (listing, s) := s.put (Desk.pairsOnNetwork · · network)
      (.ok (.ofMembers
        [("network", network.toJson),
         ("pairs", .arr (listing.pairs.map fun p => .str p.render))]), s)

end Command

end PriceDesk
