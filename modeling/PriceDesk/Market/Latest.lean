import PriceDesk.Market.Quote

namespace PriceDesk

/-- The intermediary asset of a converted price, and the network that priced the second leg. -/
structure Via where
  asset : Asset
  network : Network

structure LatestPrice where
  pair : AssetPair
  price : Decimal
  network : Network
  isReversed : Bool
  via : Option Via := none

namespace LatestPrice

def isConverted (l : LatestPrice) : Bool := l.via.isSome

def members (l : LatestPrice) : List (String × Option Json) :=
  [("pair", some l.pair.toJson), ("price", some l.price.toJson),
   ("network", some l.network.toJson), ("is_reversed", some (.bool l.isReversed)),
   ("via", l.via.map (·.asset.toJson)), ("via_network", l.via.map (·.network.toJson))]

def toJson (l : LatestPrice) : Json := .ofPresent l.members

/-- The written value with a member that tells whether the price was made from two legs. -/
def toJsonMarked (l : LatestPrice) : Json :=
  .ofPresent (("converted", some (.bool l.isConverted)) :: l.members)

end LatestPrice

/-- What a request is for: a price of its own, or a leg of a converted price. -/
inductive Role where
  | whole
  | firstLeg
  | secondLeg
deriving DecidableEq, Repr

/-- Which price is wanted. Requests with equal keys are the same request. -/
structure RequestKey where
  pair : AssetPair
  role : Role := .whole
  network : Option Network := none
deriving BEq

namespace RequestKey

/-- Requests are the same when they agree in pair, role and suggested network, however the network
is written. -/
theorem beq_iff {k l : RequestKey} :
    (k == l) = true ↔
      k.pair = l.pair ∧ k.role = l.role ∧ k.network.map Network.key = l.network.map Network.key := by
  obtain ⟨pair, role, network⟩ := k
  obtain ⟨pair', role', network'⟩ := l
  have networks : (network == network') = true ↔
      network.map Network.key = network'.map Network.key := by
    cases network <;> cases network' <;> simp [Network.beq_iff]
  change (pair == pair' && (role == role' && network == network')) = true ↔ _
  simp only [Bool.and_eq_true, beq_iff_eq, networks]

instance : EquivBEq RequestKey where
  rfl := beq_iff.mpr ⟨rfl, rfl, rfl⟩
  symm same := by
    obtain ⟨pair, role, network⟩ := beq_iff.mp same
    exact beq_iff.mpr ⟨pair.symm, role.symm, network.symm⟩
  trans left right := by
    obtain ⟨pair, role, network⟩ := beq_iff.mp left
    obtain ⟨pair', role', network'⟩ := beq_iff.mp right
    exact beq_iff.mpr ⟨pair.trans pair', role.trans role', network.trans network'⟩

def isLeg (k : RequestKey) : Bool := k.role != .whole

def members (k : RequestKey) : List (String × Json) :=
  [("pair", .str k.pair.render), ("part1", .bool (k.role == .firstLeg)),
   ("part2", .bool (k.role == .secondLeg)), ("network", .orNull (k.network.map Network.toJson))]

end RequestKey

end PriceDesk
