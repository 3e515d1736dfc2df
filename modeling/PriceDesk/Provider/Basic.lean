import PriceDesk.Market.Listing
import PriceDesk.Market.Network
import PriceDesk.Market.OrderBook
import PriceDesk.Market.Quote
import PriceDesk.Pacing.Window
import PriceDesk.Provider.Call
import PriceDesk.Provider.Capability

namespace PriceDesk

structure Pricing (ω : Type) where
  features : PricingFeatures
  call : RequestedPairs → Call ω Quotes

structure Volumes (ω : Type) where
  features : VolumeFeatures
  call : RequestedPairs → Call ω TradedVolumes

/-- An adapter to one network. -/
structure Provider (ω : Type) where
  id : String
  network : Network
  title : String
  priority : Int := 100
  direct : Bool := true
  disabled : Bool := false
  /-- Whether a request would have to wait for the rate limit, if that can be told. -/
  mustWait : Tier → Instant → ω → Option Bool := fun _ _ _ => some false
  listing : Option (Call ω Listing) := none
  pricing : Option (Pricing ω) := none
  orderBook : Option (AssetPair → Nat → Call ω OrderBook) := none
  volumes : Option (Volumes ω) := none

namespace Provider

variable {ω : Type}

def capabilities (p : Provider ω) : Capabilities where
  assetPairs := p.listing.isSome
  pricing := p.pricing.isSome
  orderBook := p.orderBook.isSome
  volume := p.volumes.isSome

def has (p : Provider ω) (c : Capability) : Bool := p.capabilities.supports c

def compare (p q : Provider ω) : Ordering :=
  (compareOfLessAndEq p.priority q.priority).then
    ((compareOfLessAndEq p.title q.title).then (compareOfLessAndEq p.id q.id))

def toJson (p : Provider ω) : Json :=
  .ofMembers
    [("id", .str p.id), ("network", p.network.toJson), ("title", .str p.title),
     ("priority", .num (.int p.priority)), ("direct", .bool p.direct),
     ("capabilities", .arr ((Capability.all.filter p.has).map (.str ·.name))),
     ("pricing_features", .orNull (p.pricing.map (·.features.toJson))),
     ("volume_features", .orNull (p.volumes.map (·.features.toJson)))]

end Provider

end PriceDesk
