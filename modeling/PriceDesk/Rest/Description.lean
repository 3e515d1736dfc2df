import PriceDesk.Json.Basic
import PriceDesk.Market.Error
import PriceDesk.Pacing.Plan
import PriceDesk.Text.Blank
import PriceDesk.Text.Template

namespace PriceDesk

def pairHole : String := "\x7bpair\x7d"

def limitHole : String := "\x7blimit\x7d"

inductive PayloadShape where
  | object
  | array
deriving DecidableEq, Repr

structure PairsEndpoint where
  path : String
  pointer : Option String := none
  shape : PayloadShape := .object
  symbolField : String := "symbol"
  baseField : Option String := none
  quoteField : Option String := none
deriving DecidableEq, Repr

structure TickerFields where
  last : String
  bid : Option String := none
  ask : Option String := none
  low : Option String := none
  high : Option String := none
  volume : Option String := none
  quoteVolume : Option String := none
deriving DecidableEq, Repr

namespace TickerFields

def hasStatistics (f : TickerFields) : Bool :=
  f.bid.isSome || f.ask.isSome || f.low.isSome || f.high.isSome

def hasVolume (f : TickerFields) : Bool := f.volume.isSome || f.quoteVolume.isSome

end TickerFields

/-- Where the tickers are. A path with a hole for the pair gives one ticker, any other path gives
all of them. -/
structure TickersEndpoint where
  path : String
  pointer : Option String := none
  shape : PayloadShape := .object
  symbolField : String := "symbol"
  fields : TickerFields
deriving DecidableEq, Repr

def TickersEndpoint.isSinglePair (t : TickersEndpoint) : Bool := Text.hasHole t.path pairHole

/-- Where the order books are, and how their levels are laid out. -/
structure OrderBookEndpoint where
  path : String
  pointer : Option String := none
  bids : String := "/bids"
  asks : String := "/asks"
  priceIndex : Nat := 0
  amountIndex : Nat := 1
  priceField : String := "price"
  amountField : String := "amount"
  maxDepth : Option Nat := none
deriving DecidableEq, Repr

structure ExchangeDescription where
  id : String
  network : String
  title : Option String := none
  priority : Int := 100
  direct : Bool := true
  disabled : Bool := false
  rateLimit : RateLimitPlan := .unlimited
  baseUrl : String
  apiKey : Option String := none
  apiKeyHeader : Option String := none
  /-- What stands between the codes of a ticker; nothing if they follow each other directly. -/
  pairSeparator : Option Char := none
  quoteAssets : List String := []
  assetAliases : List (String × String) := []
  lowercaseTickers : Bool := false
  pairs : Option PairsEndpoint := none
  tickers : Option TickersEndpoint := none
  orderBook : Option OrderBookEndpoint := none
deriving DecidableEq, Repr

namespace ExchangeDescription

def lacksSplit (e : ExchangeDescription) : Bool :=
  e.pairSeparator.isNone && e.quoteAssets.isEmpty &&
    e.pairs.any fun p => p.baseField.isNone || p.quoteField.isNone

def validate (e : ExchangeDescription) : Except MarketError Unit :=
  if (Text.trim e.id).isEmpty then .error (.configuration "exchange id must not be empty")
  else if (Text.trim e.network).isEmpty then
    .error (.configuration s!"exchange '{e.id}' has no network name")
  else if !("http://".isPrefixOf e.baseUrl || "https://".isPrefixOf e.baseUrl) then
    .error (.configuration s!"exchange '{e.id}' base_url must be an http(s) URL")
  else if e.lacksSplit then
    .error (.configuration
      s!"exchange '{e.id}' needs pair_separator, quote_assets or base/quote fields")
  else if !e.rateLimit.isValid then
    .error (.configuration
      (s!"exchange '{e.id}' rate limit must allow at least one request per non-empty " ++
        "window"))
  else .ok ()

end ExchangeDescription

def Json.ofText (s : Option String) : Json := .orNull (s.map .str)

def Json.ofCount (n : Option Nat) : Json := .orNull (n.map .ofNat)

def PayloadShape.toJson : PayloadShape → Json
  | .object => .str "Object"
  | .array => .str "Array"

def RateLimitPlan.toJson : RateLimitPlan → Json
  | .unlimited => .str "none"
  | .perSecond requests seconds =>
    .ofMembers [("requests", .ofNat requests), ("seconds", .ofNat seconds)]
  | .perMinute requests minutes anonymousRequests anonymousMinutes =>
    .ofMembers
      [("requests", .ofNat requests), ("minutes", .ofNat minutes),
       ("anonymous_requests", .ofCount anonymousRequests),
       ("anonymous_minutes", .ofCount anonymousMinutes)]

def PairsEndpoint.toJson (p : PairsEndpoint) : Json :=
  .ofMembers
    [("path", .str p.path), ("pointer", .ofText p.pointer), ("shape", p.shape.toJson),
     ("symbol_field", .str p.symbolField), ("base_field", .ofText p.baseField),
     ("quote_field", .ofText p.quoteField)]

def TickerFields.toJson (f : TickerFields) : Json :=
  .ofMembers
    [("last", .str f.last), ("bid", .ofText f.bid), ("ask", .ofText f.ask),
     ("low", .ofText f.low), ("high", .ofText f.high), ("volume", .ofText f.volume),
     ("quote_volume", .ofText f.quoteVolume)]

def TickersEndpoint.toJson (t : TickersEndpoint) : Json :=
  .ofMembers
    [("path", .str t.path), ("pointer", .ofText t.pointer), ("shape", t.shape.toJson),
     ("symbol_field", .str t.symbolField), ("single_pair", .bool t.isSinglePair),
     ("has_statistics", .bool t.fields.hasStatistics), ("has_volume", .bool t.fields.hasVolume),
     ("fields", t.fields.toJson)]

def OrderBookEndpoint.toJson (o : OrderBookEndpoint) : Json :=
  .ofMembers
    [("path", .str o.path), ("pointer", .ofText o.pointer), ("bids", .str o.bids),
     ("asks", .str o.asks), ("price_index", .ofNat o.priceIndex),
     ("amount_index", .ofNat o.amountIndex), ("price_field", .str o.priceField),
     ("amount_field", .str o.amountField), ("max_depth", .ofCount o.maxDepth)]

def ExchangeDescription.members (e : ExchangeDescription) : List (String × Json) :=
  [("id", .str e.id), ("network", .str e.network), ("title", .ofText e.title),
   ("priority", .num (.int e.priority)), ("direct", .bool e.direct),
   ("disabled", .bool e.disabled), ("rate_limit", e.rateLimit.toJson),
   ("base_url", .str e.baseUrl), ("api_key", .ofText e.apiKey),
   ("api_key_header", .ofText e.apiKeyHeader),
   ("pair_separator", .ofText (e.pairSeparator.map Char.toString)),
   ("quote_assets", .arr (e.quoteAssets.map .str)),
   ("asset_aliases", .ofMembers (e.assetAliases.map fun (k, v) => (k, .str v))),
   ("lowercase_tickers", .bool e.lowercaseTickers),
   ("pairs", .orNull (e.pairs.map PairsEndpoint.toJson)),
   ("tickers", .orNull (e.tickers.map TickersEndpoint.toJson)),
   ("order_book", .orNull (e.orderBook.map OrderBookEndpoint.toJson))]

end PriceDesk
