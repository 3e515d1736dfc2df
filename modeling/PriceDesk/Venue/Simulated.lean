import PriceDesk.Market.PairMap
import PriceDesk.Provider.Basic
import PriceDesk.Venue.Street

namespace PriceDesk

structure SimulatedTicker where
  price : Decimal
  statistics : Statistics := {}
  volume : Option Decimal := none

structure SimulatedVenue where
  id : String
  network : Network
  priority : Int := 100
  direct : Bool := true
  disabled : Bool := false
  latency : Duration := 0
  listing : Listing := .empty
  tickers : PairMap SimulatedTicker := .empty
  bids : List Level := []
  asks : List Level := []
  features : PricingFeatures :=
    { single := true, bulk := true, canReturnAll := true, canStatistics := true, canVolume := true }
  capabilities : Capabilities :=
    { assetPairs := true, pricing := true, orderBook := true, volume := true }
  failsListing : Bool := false
  failsPricing : Bool := false

namespace SimulatedVenue

/-- The venue with more pairs listed. The pairs are given as texts; there is no venue for a text
that names no pair. -/
def list? (v : SimulatedVenue) (texts : List String) : Option SimulatedVenue := do
  let pairs ← texts.mapM fun text => (AssetPair.ofString? text).toOption
  return { v with listing := v.listing.extend pairs }

def quote? (v : SimulatedVenue) (text : String) (ticker : SimulatedTicker) :
    Option SimulatedVenue := do
  let pair ← (AssetPair.ofString? text).toOption
  return { v with listing := (v.listing.add pair).2, tickers := v.tickers.insert pair ticker }

def quotes (v : SimulatedVenue) : PairMap Quote :=
  v.tickers.filterMap fun pair t =>
    let plain : Quote := { network := v.network, pair, price := t.price }
    some ((plain.withStatistics t.statistics).withVolume
      { network := v.network, pair, base := t.volume, quote := none })

def volumes (v : SimulatedVenue) : PairMap TradedVolume :=
  v.tickers.filterMap fun pair t =>
    t.volume.map fun amount => { network := v.network, pair, base := some amount, quote := none }

def listingAnswer (v : SimulatedVenue) : Except MarketError Listing :=
  if v.failsListing || v.listing.isEmpty then
    .error (.providerResponse v.id "get_asset_pairs" "No asset pairs returned")
  else .ok v.listing

def pricingAnswer (v : SimulatedVenue) (requested : RequestedPairs) : Except MarketError Quotes :=
  if v.failsPricing then .error (.transport v.id "connection reset")
  else v.quotes.quotes v.id requested

def orderBookAnswer (v : SimulatedVenue) (pair : AssetPair) (depth : Nat) :
    Except MarketError OrderBook :=
  if v.listing.contains pair then
    let book : OrderBook := { network := v.network, pair, bids := v.bids, asks := v.asks }
    .ok (book.truncate (OrderBook.depth depth OrderBook.defaultCap))
  else
    .error (.providerResponse v.id "get_order_book"
      s!"Specified currency pair {pair} is not supported by provider")

def call {α : Type} (v : SimulatedVenue) (count : Street → Street)
    (answer : Except MarketError α) : Call Street α :=
  fun _ _ w => (⟨some v.latency, answer⟩, count w)

def provider (v : SimulatedVenue) (i : Nat) : Provider Street where
  id := v.id
  network := v.network
  title := v.network.name
  priority := v.priority
  direct := v.direct
  disabled := v.disabled
  mustWait := Street.mustWait i
  listing := if v.capabilities.assetPairs then
    some (v.call (·.countListing i) v.listingAnswer) else none
  pricing := if v.capabilities.pricing then
    some { features := v.features
           call := fun requested => v.call (·.countPricing i) (v.pricingAnswer requested) }
    else none
  orderBook := if v.capabilities.orderBook then
    some fun pair depth => v.call (·.countOrderBook i) (v.orderBookAnswer pair depth) else none
  volumes := if v.capabilities.volume then
    some { features := { single := true, bulk := true, canReturnAll := true }
           call := fun requested =>
             v.call (·.countVolume i) (v.volumes.volumes v.id requested) }
    else none

end SimulatedVenue

end PriceDesk
