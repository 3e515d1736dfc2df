import PriceDesk.Config.Exchange
import PriceDesk.Discovery.Search
import PriceDesk.Market.OrderBook
import PriceDesk.Time.Duration

namespace PriceDesk

structure Settings where
  listingSeconds : Nat := 43200
  intermediaries : List String := ["BTC", "USD", "USDT"]
  orderBookCap : Nat := OrderBook.defaultCap
  timeoutSeconds : Nat := 30
  reversalEnabled : Bool := true
  conversionEnabled : Bool := true
deriving DecidableEq, Repr

namespace Settings

def listingTtl (s : Settings) : Duration := .ofSeconds s.listingSeconds

def timeout (s : Settings) : Duration := .ofSeconds s.timeoutSeconds

def discovery (s : Settings) : DiscoveryOptions where
  reversalEnabled := s.reversalEnabled
  conversionEnabled := s.conversionEnabled
  intermediaries := s.intermediaries.map .of

def validate (s : Settings) : Except MarketError Unit :=
  if s.timeoutSeconds == 0 then
    .error (.configuration "request_timeout_secs must be greater than zero")
  else if s.orderBookCap == 0 then
    .error (.configuration "order_book_cap must be greater than zero")
  else
    match s.intermediaries.find? fun a => (Text.trim a).isEmpty with
    | some blank => .error (.configuration s!"invalid intermediary asset '{blank}'")
    | none => .ok ()

def toJson (s : Settings) : Json :=
  .ofMembers
    [("pair_cache_ttl_secs", .ofNat s.listingSeconds), ("order_book_cap", .ofNat s.orderBookCap),
     ("request_timeout_secs", .ofNat s.timeoutSeconds),
     ("intermediaries", .arr (s.intermediaries.map .str)),
     ("is_default", .bool (s == {}))]

end Settings

def DiscoveryOptions.toJson (o : DiscoveryOptions) : Json :=
  .ofMembers
    [("reversal", .bool o.reversalEnabled), ("conversion", .bool o.conversionEnabled),
     ("require_pricing", .bool o.requirePricing),
     ("intermediaries", .arr (o.intermediaries.map Asset.toJson)),
     ("is_default", .bool (o == {}))]

structure Configuration where
  settings : Settings := {}
  exchanges : List ExchangeDescription := []
deriving DecidableEq, Repr

namespace Config

def settings : Reader Settings := fun d => do
  match ← fields ["pair_cache_ttl_secs", "intermediaries", "order_book_cap",
      "request_timeout_secs", "reversal_enabled", "conversion_enabled"] d with
  | [listingSeconds, intermediaries, orderBookCap, timeoutSeconds, reversal, conversion] =>
    let plain : Settings := {}
    return {
      listingSeconds := ← withDefault plain.listingSeconds nat listingSeconds
      intermediaries := ← withDefault plain.intermediaries (list text) intermediaries
      orderBookCap := ← withDefault plain.orderBookCap nat orderBookCap
      timeoutSeconds := ← withDefault plain.timeoutSeconds nat timeoutSeconds
      reversalEnabled := ← withDefault true flag reversal
      conversionEnabled := ← withDefault true flag conversion }
  | _ => none

def configuration : Reader Configuration := fun d => do
  match ← fields ["aggregator", "exchanges"] d with
  | [aggregator, exchanges] =>
    return {
      settings := ← withDefault {} settings aggregator
      exchanges := ← withDefault [] (list exchange) exchanges }
  | _ => none

end Config

namespace Configuration

def ofText? (s : String) : Except MarketError Configuration :=
  match (Json.Document.ofText? s).bind Config.configuration with
  | none => .error (.configuration "invalid config")
  | some c => do
    c.settings.validate
    return c

def noSuchFile : String := "No such file or directory (os error 2)"

/-- The configuration in a file, of which the contents are known or why there are none. -/
def ofFile? (path : String) : Except String String → Except MarketError Configuration
  | .ok contents => ofText? contents
  | .error reason => .error (.configuration s!"cannot read {path}: {reason}")

end Configuration

end PriceDesk
