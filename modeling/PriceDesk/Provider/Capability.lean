import PriceDesk.Market.Requested

namespace PriceDesk

inductive Capability where
  | assetPairs
  | pricing
  | orderBook
  | volume
deriving DecidableEq, Repr

namespace Capability

def all : List Capability := [.assetPairs, .pricing, .orderBook, .volume]

def name : Capability → String
  | .assetPairs => "asset pairs"
  | .pricing => "pricing"
  | .orderBook => "order book"
  | .volume => "volume"

def ofName? (s : String) : Option Capability := all.find? (·.name == s)

instance : ToString Capability := ⟨name⟩

end Capability

structure Capabilities where
  assetPairs : Bool := false
  pricing : Bool := false
  orderBook : Bool := false
  volume : Bool := false
deriving DecidableEq, Repr

def Capabilities.supports (c : Capabilities) : Capability → Bool
  | .assetPairs => c.assetPairs
  | .pricing => c.pricing
  | .orderBook => c.orderBook
  | .volume => c.volume

structure PricingFeatures where
  single : Bool := true
  bulk : Bool := false
  canReturnAll : Bool := false
  canStatistics : Bool := false
  canVolume : Bool := false
deriving DecidableEq, Repr

namespace PricingFeatures

def supports (f : PricingFeatures) : RequestedPairs → Bool
  | .all => f.canReturnAll
  | .pairs [_] => f.single || f.bulk
  | .pairs _ => f.bulk

def toJson (f : PricingFeatures) : Json :=
  .arr ([f.single, f.bulk, f.canReturnAll, f.canStatistics, f.canVolume].map .bool)

end PricingFeatures

structure VolumeFeatures where
  single : Bool := true
  bulk : Bool := false
  canReturnAll : Bool := false
deriving DecidableEq, Repr

def VolumeFeatures.toJson (f : VolumeFeatures) : Json :=
  .arr ([f.single, f.bulk, f.canReturnAll].map .bool)

end PriceDesk
