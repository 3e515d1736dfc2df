import PriceDesk.Decimal.Parse
import PriceDesk.Json.Pointer
import PriceDesk.Market.Listing
import PriceDesk.Market.OrderBook
import PriceDesk.Market.PairMap
import PriceDesk.Rest.Codes

namespace PriceDesk.Payload

def select (payload : Json) : Option String → Option Json
  | some pointer => Json.Pointer.select? payload pointer
  | none => some payload

def field (entry : Json) (location : String) : Option Json :=
  match location.toList with
  | '/' :: _ => Json.Pointer.select? entry location
  | _ => entry.get? location

def decimal : Json → Option Decimal
  | .str s => Decimal.ofNumeral? (Text.trim s)
  | .num n => Decimal.ofNumeral? n.render
  | _ => none

def decimalAt (entry : Json) (location : Option String) : Option Decimal :=
  (location.bind (field entry)).bind decimal

def entries (payload : Json) (shape : PayloadShape) (symbolField : String) :
    List (String × Json) :=
  match shape, payload with
  | .object, .obj members => members
  | .array, .arr items =>
    items.filterMap fun item =>
      match item with
      | .str s => some (s, item)
      | _ => ((field item symbolField).bind Json.str?).map (·, item)
  | _, _ => []

def namedPair (codes : Codes) (baseField quoteField : String) (item : Json) :
    Option AssetPair := do
  let base ← (← field item baseField).str?
  let quote ← (← field item quoteField).str?
  codes.pair? base quote

def pairs (payload : Json) (endpoint : PairsEndpoint) (codes : Codes) : Listing :=
  match select payload endpoint.pointer with
  | none => .empty
  | some payload =>
    match endpoint.shape, endpoint.baseField, endpoint.quoteField, payload with
    | .array, some baseField, some quoteField, .arr items =>
      .ofList (items.filterMap (namedPair codes baseField quoteField))
    | _, _, _, _ =>
      .ofList ((entries payload endpoint.shape endpoint.symbolField).filterMap
        fun (ticker, _) => codes.parseTicker ticker)

structure Ticker where
  last : Decimal
  statistics : Statistics
  volume : Option Decimal
  quoteVolume : Option Decimal

namespace Ticker

def tradedVolume (t : Ticker) (network : Network) (pair : AssetPair) : TradedVolume :=
  { network, pair, base := t.volume, quote := t.quoteVolume }

def quote (t : Ticker) (network : Network) (pair : AssetPair) : Quote :=
  let plain : Quote := { network, pair, price := t.last }
  (plain.withStatistics t.statistics).withVolume (t.tradedVolume network pair)

end Ticker

def ticker (entry : Json) (fields : TickerFields) : Option Ticker := do
  let last ← decimalAt entry fields.last
  return {
    last
    statistics :=
      { highestBid := decimalAt entry fields.bid
        lowestAsk := decimalAt entry fields.ask
        low := decimalAt entry fields.low
        high := decimalAt entry fields.high }
    volume := decimalAt entry fields.volume
    quoteVolume := decimalAt entry fields.quoteVolume }

def tickers (payload : Json) (shape : PayloadShape) (symbolField : String)
    (fields : TickerFields) (codes : Codes) : PairMap Ticker :=
  .ofList ((entries payload shape symbolField).filterMap fun (name, entry) => do
    return (← codes.parseTicker name, ← ticker entry fields))

def level (endpoint : OrderBookEndpoint) : Json → Option Level
  | .arr items => do
    let price ← decimal (← items[endpoint.priceIndex]?)
    return { price, amount := ← decimal (← items[endpoint.amountIndex]?) }
  | .obj members => do
    let price ← decimal (← members.lookup endpoint.priceField)
    return { price, amount := ← decimal (← members.lookup endpoint.amountField) }
  | _ => none

def levels (payload : Json) (pointer : String) (endpoint : OrderBookEndpoint) : List Level :=
  match Json.Pointer.select? payload pointer with
  | some (.arr items) => items.filterMap (level endpoint)
  | _ => []

end PriceDesk.Payload
