import PriceDesk.Json.Document
import PriceDesk.Provider.Basic
import PriceDesk.Rest.Payload
import PriceDesk.Rest.Server
import PriceDesk.Rest.Url
import PriceDesk.Text.Percent
import PriceDesk.Venue.Street

namespace PriceDesk

/-- An exchange, the server behind its address, and how long a request may take. -/
structure Adapter where
  description : ExchangeDescription
  codes : Codes
  server : Server
  timeout : Duration
  index : Nat

inductive Adapter.Refusal where
  | invalid (e : MarketError)
  | noLimiter
deriving DecidableEq, Repr

/-- How far a call has come: the instant, the street, and when its caller stops waiting. -/
structure Trip where
  now : Instant
  street : Street
  deadline : Option Instant

namespace Adapter

def pace? (e : ExchangeDescription) : Except Refusal Pace :=
  match e.validate with
  | .error err => .error (.invalid err)
  | .ok () =>
    match e.rateLimit.pace? with
    | none => .error .noLimiter
    | some pace => .ok pace

def of (e : ExchangeDescription) (server : Server) (timeout : Duration) (index : Nat) : Adapter :=
  { description := e, codes := .of e, server, timeout, index }

def network (a : Adapter) : Network := .of a.description.network

def id (a : Adapter) : String := a.description.id

def tier (a : Adapter) : Tier :=
  if a.description.apiKey.isSome then .authenticated else .anonymous

def keyHeader (a : Adapter) : Option Header :=
  a.description.apiKey.map fun key => ⟨a.description.apiKeyHeader.getD "X-API-Key", key⟩

/-- The address of a path, with the ticker of a pair and a number of levels filled in. -/
def url (a : Adapter) (path : String) (pair : Option AssetPair) (limit : Option Nat) : String :=
  let path := match pair with
    | some p => Text.fill path pairHole (Text.percentEncode (a.codes.ticker p))
    | none => path
  let path := match limit with
    | some n => Text.fill path limitHole (toString n)
    | none => path
  let base := a.description.baseUrl.toList.reverse.dropWhile (· == '/')
  String.ofList base.reverse ++ path

def pointer (a : Adapter) (pointer : Option String) (pair : AssetPair) : Option String :=
  pointer.map fun t => Text.fill t pairHole (a.codes.ticker pair)

def requestTime : Duration := 1000

def bodyText (body : String) : String :=
  match body.toList with
  | '\uFEFF' :: rest => String.ofList rest
  | _ => body

def read (a : Adapter) (method : String) (url : Url) : Response → Except MarketError Json
  | .dropped => .error (.transport a.id s!"error sending request for url ({url.render})")
  | .silent => .error (.timeout a.id method 0)
  | .answered status body =>
    if status == 429 then .error (.rateLimited a.id)
    else if status < 200 || 300 ≤ status then
      .error (.providerResponse a.id method s!"HTTP {statusText status} - {bodyText body}")
    else
      match Json.ofText? body with
      | some payload => .ok payload
      | none => .error (.providerResponse a.id method "error decoding response body")

def fetch (a : Adapter) (method url : String) (trip : Trip) : Except MarketError Json × Trip :=
  let (start, street) := trip.street.pace a.index a.tier trip.now
  if trip.deadline.any (· < start) then
    (.error (.timeout a.id method 0),
     { trip with now := start, street := { trip.street with lost := street.lost } })
  else
    match Url.ofString? url with
    | none => (.error (.transport a.id "builder error"), { trip with now := start, street })
    | some address =>
      if a.keyHeader.any (!·.isSendable) then
        (.error (.transport a.id "builder error"), { trip with now := start, street })
      else
        let line := address.target ++ (a.keyHeader.map Header.note).getD ""
        let response := a.server.respond address.target
        let time := if response = .silent then a.timeout else requestTime
        (a.read method address response,
         { trip with now := start + time, street := street.note line })

def call {α : Type} (go : Trip → Except MarketError α × Trip) : Call Street α :=
  fun patience now street =>
    let (outcome, trip) := go { now, street, deadline := patience.map (now + ·) }
    (⟨some (trip.now - now), outcome⟩, trip.street)

def fetchListing (a : Adapter) (trip : Trip) : Except MarketError Listing × Trip :=
  match a.description.pairs with
  | none => (.error (.configuration s!"{a.id} has no pairs endpoint"), trip)
  | some endpoint =>
    let (answer, trip) := a.fetch "get_asset_pairs" (a.url endpoint.path none none) trip
    let listing := do
      let listing := Payload.pairs (← answer) endpoint a.codes
      if listing.isEmpty then
        .error (.providerResponse a.id "get_asset_pairs" "No asset pairs returned")
      else .ok listing
    (listing, trip)

/-- A way to send requests: what comes back for a method and an address, and the state that this
leaves. -/
abbrev Fetch (σ : Type) := String → String → σ → Except MarketError Json × σ

/-- The tickers that single requests have brought so far, and the error of the last request that
failed. -/
structure Harvest where
  tickers : PairMap Payload.Ticker := .empty
  failure : Option MarketError := none

def harvest {σ : Type} (a : Adapter) (fetch : Fetch σ) (endpoint : TickersEndpoint)
    (method : String) : List AssetPair → Harvest → σ → Harvest × σ
  | [], h, state => (h, state)
  | pair :: pairs, h, state =>
    let (answer, state) := fetch method (a.url endpoint.path (some pair) none) state
    let h : Harvest :=
      match answer with
      | .error e => { h with failure := some e }
      | .ok payload =>
        match (Payload.select payload (a.pointer endpoint.pointer pair)).bind
            (Payload.ticker · endpoint.fields) with
        | some ticker => { h with tickers := h.tickers.insert pair ticker }
        | none => h
    harvest a fetch endpoint method pairs h state

def fetchTickers {σ : Type} (a : Adapter) (fetch : Fetch σ) (endpoint : TickersEndpoint)
    (requested : RequestedPairs) (method : String) (state : σ) :
    Except MarketError (PairMap Payload.Ticker) × σ :=
  if endpoint.isSinglePair then
    match requested with
    | .all =>
      (.error (.configuration s!"{a.id} cannot return all tickers in one call"), state)
    | .pairs pairs =>
      let (h, state) := a.harvest fetch endpoint method pairs {} state
      match h.failure with
      | some e => (if h.tickers.isEmpty then .error e else .ok h.tickers, state)
      | none => (.ok h.tickers, state)
  else
    let (answer, state) := fetch method (a.url endpoint.path none none) state
    let tickers := do
      match Payload.select (← answer) endpoint.pointer with
      | none => .error (.providerResponse a.id method "Ticker pointer not found")
      | some payload =>
        .ok (Payload.tickers payload endpoint.shape endpoint.symbolField endpoint.fields a.codes)
    (tickers, state)

def fetchQuotes {σ : Type} (a : Adapter) (fetch : Fetch σ) (requested : RequestedPairs)
    (state : σ) : Except MarketError Quotes × σ :=
  match a.description.tickers with
  | none => (.error (.configuration s!"{a.id} has no tickers endpoint"), state)
  | some endpoint =>
    let (tickers, state) := a.fetchTickers fetch endpoint requested "get_pricing" state
    (tickers.bind fun ts =>
      (ts.filterMap fun pair t => some (t.quote a.network pair)).quotes a.id requested, state)

def fetchVolumes {σ : Type} (a : Adapter) (fetch : Fetch σ) (requested : RequestedPairs)
    (state : σ) : Except MarketError TradedVolumes × σ :=
  match a.description.tickers with
  | none => (.error (.configuration s!"{a.id} has no tickers endpoint"), state)
  | some endpoint =>
    let (tickers, state) := a.fetchTickers fetch endpoint requested "get_volume" state
    let known (pair : AssetPair) (t : Payload.Ticker) : Option TradedVolume :=
      let volume := t.tradedVolume a.network pair
      if volume.isKnown then some volume else none
    (tickers.bind fun ts => (ts.filterMap known).volumes a.id requested, state)

def fetchOrderBook (a : Adapter) (pair : AssetPair) (requested : Nat) (trip : Trip) :
    Except MarketError OrderBook × Trip :=
  match a.description.orderBook with
  | none => (.error (.configuration s!"{a.id} has no order book endpoint"), trip)
  | some endpoint =>
    let depth := OrderBook.depth requested (endpoint.maxDepth.getD OrderBook.defaultCap)
    let (answer, trip) :=
      a.fetch "get_order_book" (a.url endpoint.path (some pair) (some depth)) trip
    let book := do
      match Payload.select (← answer) (a.pointer endpoint.pointer pair) with
      | none => .error (.providerResponse a.id "get_order_book" "Order book not found")
      | some payload =>
        let whole : OrderBook :=
          { network := a.network, pair
            bids := Payload.levels payload endpoint.bids endpoint
            asks := Payload.levels payload endpoint.asks endpoint }
        if whole.isEmpty then
          .error (.providerResponse a.id "get_order_book" s!"Empty order book for {pair}")
        else .ok (whole.truncate depth)
    (book, trip)

def pricingFeatures (a : Adapter) : PricingFeatures :=
  match a.description.tickers with
  | none => {}
  | some t =>
    { single := true, bulk := !t.isSinglePair, canReturnAll := !t.isSinglePair
      canStatistics := t.fields.hasStatistics, canVolume := t.fields.hasVolume }

def volumeFeatures (a : Adapter) : VolumeFeatures :=
  let bulk := a.description.tickers.any (!·.isSinglePair)
  { single := true, bulk, canReturnAll := bulk }

def fullProvider (a : Adapter) : Provider Street where
  id := a.id
  network := a.network
  title := a.description.title.getD a.network.name
  priority := a.description.priority
  direct := a.description.direct
  disabled := a.description.disabled
  mustWait := Street.mustWait a.index
  listing := some (call a.fetchListing)
  pricing := some { features := a.pricingFeatures, call := fun r => call (a.fetchQuotes a.fetch r) }
  orderBook := some fun pair depth => call (a.fetchOrderBook pair depth)
  volumes := some { features := a.volumeFeatures, call := fun r => call (a.fetchVolumes a.fetch r) }

def provider (a : Adapter) : Provider Street :=
  let full := a.fullProvider
  { full with
    listing := if a.description.pairs.isSome then full.listing else none
    pricing := if a.description.tickers.isSome then full.pricing else none
    orderBook := if a.description.orderBook.isSome then full.orderBook else none
    volumes := if a.description.tickers.any (·.fields.hasVolume) then full.volumes else none }

end Adapter

end PriceDesk
