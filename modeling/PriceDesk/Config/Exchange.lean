import PriceDesk.Config.Reader
import PriceDesk.Rest.Description

namespace PriceDesk.Config

open Json (Document)

def rateLimitDepth : Nat := 124

def rateLimitOf (kind : String) (body : Document) : Option RateLimitPlan :=
  match kind with
  | "none" =>
    match body with
    | .object _ | .array [] => some .unlimited
    | _ => none
  | "per_second" => do
    match ← fields ["requests", "seconds"] body with
    | [requests, seconds] =>
      return .perSecond (← required nat requests) (← withDefault 1 nat seconds)
    | _ => none
  | "per_minute" => do
    match ← fields ["requests", "minutes", "anonymous_requests", "anonymous_minutes"] body with
    | [requests, minutes, anonymousRequests, anonymousMinutes] =>
      return .perMinute (← required nat requests) (← withDefault 1 nat minutes)
        (← optional nat anonymousRequests) (← optional nat anonymousMinutes)
    | _ => none
  | _ => none

/-- A rate limit: an object with its kind among the members, or an array that begins with its
kind. Everything in it must have a value, also what is passed over. -/
def rateLimit : Reader RateLimitPlan := fun d =>
  if (d.value? rateLimitDepth).isNone then none
  else
    match d with
    | .object members => do
      match members.filter (·.1 == some "kind") with
      | [(_, kind)] =>
        rateLimitOf (← text kind) (.object (members.filter (·.1 != some "kind")))
      | _ => none
    | .array (kind :: rest) => do rateLimitOf (← text kind) (.array rest)
    | _ => none

def shapeOf : String → Option PayloadShape
  | "object" => some .object
  | "array" => some .array
  | _ => none

def shape : Reader PayloadShape
  | .text (some s) => shapeOf s
  | .object [(some s, .null)] => shapeOf s
  | _ => none

def pairsEndpoint : Reader PairsEndpoint := fun d => do
  match ← fields ["path", "pointer", "shape", "symbol_field", "base_field", "quote_field"] d with
  | [path, pointer, shapeField, symbolField, baseField, quoteField] =>
    return {
      path := ← required text path
      pointer := ← optional text pointer
      shape := ← withDefault .object shape shapeField
      symbolField := ← withDefault "symbol" text symbolField
      baseField := ← optional text baseField
      quoteField := ← optional text quoteField }
  | _ => none

def tickerFields : Reader TickerFields := fun d => do
  match ← fields ["last", "bid", "ask", "low", "high", "volume", "quote_volume"] d with
  | [last, bid, ask, low, high, volume, quoteVolume] =>
    return {
      last := ← required text last
      bid := ← optional text bid
      ask := ← optional text ask
      low := ← optional text low
      high := ← optional text high
      volume := ← optional text volume
      quoteVolume := ← optional text quoteVolume }
  | _ => none

def tickersEndpoint : Reader TickersEndpoint := fun d => do
  match ← fields ["path", "pointer", "shape", "symbol_field", "fields"] d with
  | [path, pointer, shapeField, symbolField, places] =>
    return {
      path := ← required text path
      pointer := ← optional text pointer
      shape := ← withDefault .object shape shapeField
      symbolField := ← withDefault "symbol" text symbolField
      fields := ← required tickerFields places }
  | _ => none

def orderBookEndpoint : Reader OrderBookEndpoint := fun d => do
  match ← fields ["path", "pointer", "bids", "asks", "price_index", "amount_index",
      "price_field", "amount_field", "max_depth"] d with
  | [path, pointer, bids, asks, priceIndex, amountIndex, priceField, amountField, maxDepth] =>
    return {
      path := ← required text path
      pointer := ← optional text pointer
      bids := ← withDefault "/bids" text bids
      asks := ← withDefault "/asks" text asks
      priceIndex := ← withDefault 0 nat priceIndex
      amountIndex := ← withDefault 1 nat amountIndex
      priceField := ← withDefault "price" text priceField
      amountField := ← withDefault "amount" text amountField
      maxDepth := ← optional nat maxDepth }
  | _ => none

def exchangeFields : List String :=
  ["id", "network", "title", "priority", "direct", "disabled", "rate_limit", "base_url",
   "api_key", "api_key_header", "pair_separator", "quote_assets", "asset_aliases",
   "lowercase_tickers", "pairs", "tickers", "order_book"]

def exchange : Reader ExchangeDescription := fun d => do
  match ← fields exchangeFields d with
  | [id, network, title, priority, direct, disabled, limit, baseUrl, apiKey, apiKeyHeader,
      separator, quoteAssets, aliases, lowercase, pairs, tickers, orderBook] =>
    return {
      id := ← required text id
      network := ← required text network
      title := ← optional text title
      priority := ← withDefault 100 int32 priority
      direct := ← withDefault true flag direct
      disabled := ← withDefault false flag disabled
      rateLimit := ← withDefault .unlimited rateLimit limit
      baseUrl := ← required text baseUrl
      apiKey := ← optional text apiKey
      apiKeyHeader := ← optional text apiKeyHeader
      pairSeparator := ← optional char separator
      quoteAssets := ← withDefault [] (list text) quoteAssets
      assetAliases := ← withDefault [] dictionary aliases
      lowercaseTickers := ← withDefault false flag lowercase
      pairs := ← optional pairsEndpoint pairs
      tickers := ← optional tickersEndpoint tickers
      orderBook := ← optional orderBookEndpoint orderBook }
  | _ => none

end PriceDesk.Config
