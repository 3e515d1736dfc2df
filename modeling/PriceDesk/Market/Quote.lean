import PriceDesk.Decimal.Arithmetic
import PriceDesk.Market.Volume

namespace PriceDesk

/-- What a network publishes about the trade in a pair, in units of the quote asset. -/
structure Statistics where
  highestBid : Option Decimal := none
  lowestAsk : Option Decimal := none
  low : Option Decimal := none
  high : Option Decimal := none

namespace Statistics

def isEmpty (s : Statistics) : Bool :=
  s.highestBid.isNone && s.lowestAsk.isNone && s.low.isNone && s.high.isNone

/-- The statistics of the reversed pair: bid and ask change sides, and so do low and high. -/
def reversed (s : Statistics) : Statistics where
  highestBid := s.lowestAsk.bind Decimal.reciprocal?
  lowestAsk := s.highestBid.bind Decimal.reciprocal?
  low := s.high.bind Decimal.reciprocal?
  high := s.low.bind Decimal.reciprocal?

def toJson (s : Statistics) : Json :=
  .ofPresent
    [("highest_bid", s.highestBid.map Decimal.toJson),
     ("lowest_ask", s.lowestAsk.map Decimal.toJson),
     ("price_24h_low", s.low.map Decimal.toJson),
     ("price_24h_high", s.high.map Decimal.toJson)]

end Statistics

structure Quote where
  network : Network
  pair : AssetPair
  price : Decimal
  statistics : Option Statistics := none
  volume : Option TradedVolume := none

namespace Quote

def withStatistics (q : Quote) (s : Statistics) : Quote :=
  { q with statistics := if s.isEmpty then none else some s }

def withVolume (q : Quote) (v : TradedVolume) : Quote :=
  { q with volume := if v.isKnown then some v else none }

def reversed (q : Quote) : Except MarketError Quote :=
  match q.price.reciprocal? with
  | some price =>
    .ok
      { network := q.network
        pair := q.pair.reversed
        price
        statistics := q.statistics.map Statistics.reversed
        volume := q.volume.map TradedVolume.reversed }
  | none => .error (.invalidPrice q.pair.render "cannot reverse a zero price")

def reversals (q : Quote) : Nat → List Quote × Option MarketError
  | 0 => ([q], none)
  | n + 1 =>
    match q.reversed with
    | .ok r =>
      let (rest, failure) := r.reversals n
      (q :: rest, failure)
    | .error e => ([q], some e)

def toJson (q : Quote) : Json :=
  .ofPresent
    [("network", some q.network.toJson), ("pair", some q.pair.toJson),
     ("price", some q.price.toJson), ("statistics", q.statistics.map Statistics.toJson),
     ("volume", q.volume.map TradedVolume.toJson)]

end Quote

/-- The answer to a request for prices: the quotes found, and the pairs for which there is none. -/
structure Quotes where
  quotes : List Quote := []
  missed : List AssetPair := []

namespace Quotes

def get? (qs : Quotes) (p : AssetPair) : Option Quote := qs.quotes.find? (·.pair == p)

def isMissed (qs : Quotes) (p : AssetPair) : Bool := qs.missed.contains p

def toJson (qs : Quotes) : Json :=
  .ofMembers
    [("prices", .arr (qs.quotes.map Quote.toJson)),
     ("missed_pairs", .arr (qs.missed.map AssetPair.toJson))]

end Quotes

end PriceDesk
