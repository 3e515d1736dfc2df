import PriceDesk.Decimal.Basic
import PriceDesk.Market.Asset
import PriceDesk.Market.Network

namespace PriceDesk

def Decimal.toJson (d : Decimal) : Json := .str d.render

/-- What was traded of a pair on a network within a day, in units of either asset. -/
structure TradedVolume where
  network : Network
  pair : AssetPair
  base : Option Decimal
  quote : Option Decimal

namespace TradedVolume

def isKnown (v : TradedVolume) : Bool := v.base.isSome || v.quote.isSome

def reversed (v : TradedVolume) : TradedVolume :=
  { v with pair := v.pair.reversed, base := v.quote, quote := v.base }

def toJson (v : TradedVolume) : Json :=
  .ofPresent
    [("network", some v.network.toJson), ("pair", some v.pair.toJson),
     ("volume_24h", v.base.map Decimal.toJson), ("volume_24h_quote", v.quote.map Decimal.toJson)]

end TradedVolume

/-- The answer to a request for volumes: those found, and the pairs for which there is none. -/
structure TradedVolumes where
  volumes : List TradedVolume := []
  missed : List AssetPair := []

namespace TradedVolumes

def get? (vs : TradedVolumes) (p : AssetPair) : Option TradedVolume :=
  vs.volumes.find? (·.pair == p)

def toJson (vs : TradedVolumes) : Json :=
  .ofMembers
    [("volumes", .arr (vs.volumes.map TradedVolume.toJson)),
     ("missed_pairs", .arr (vs.missed.map AssetPair.toJson))]

end TradedVolumes

/-- The volumes of one pair, in the order in which they were added. -/
structure PairVolumes where
  pair : AssetPair
  entries : List TradedVolume := []

namespace PairVolumes

def insert (vs : PairVolumes) (v : TradedVolume) : Except MarketError Unit × PairVolumes :=
  if v.pair.equalsOrReversed vs.pair then
    let own := if v.pair == vs.pair then v else v.reversed
    (.ok (), { vs with entries := vs.entries ++ [own] })
  else (.error (.invalidPair s!"cannot add {v.pair} volume to {vs.pair} collection"), vs)

def add (vs : PairVolumes) (v : TradedVolume) : Except MarketError PairVolumes :=
  let (outcome, vs) := vs.insert v
  outcome.map fun _ => vs

def toJson (vs : PairVolumes) : Json :=
  .ofMembers [("pair", vs.pair.toJson), ("entries", .arr (vs.entries.map TradedVolume.toJson))]

end PairVolumes

end PriceDesk
