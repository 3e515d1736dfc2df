import PriceDesk.Market.Asset
import PriceDesk.Market.Network
import PriceDesk.Text.Quoted

namespace PriceDesk

/-- A provider that can quote a pair. -/
structure Leg where
  provider : String
  network : Network
  pair : AssetPair
  isReversed : Bool

namespace Leg

def providerPair (l : Leg) : AssetPair := if l.isReversed then l.pair.reversed else l.pair

def same (l m : Leg) : Bool :=
  l.provider == m.provider && l.pair == m.pair && l.isReversed == m.isReversed

def describe (l : Leg) (via : String) : String :=
  "AssetPairKnownProviders \x7b provider: " ++ Text.quoted l.provider ++
    s!", network: Network({l.network}), pair: AssetPair({l.pair})" ++
    s!", is_reversed: {l.isReversed}, via: {via}" ++ " \x7d"

end Leg

/-- How a requested pair can be priced. -/
inductive Match where
  | plain (leg : Leg)
  /-- From the base asset to an intermediary, and from there to the quote asset. -/
  | converted (first second : Leg)

namespace Match

def first : Match → Leg
  | .plain leg => leg
  | .converted first _ => first

def second? : Match → Option Leg
  | .plain _ => none
  | .converted _ second => some second

def legs (m : Match) : List Leg := m.first :: m.second?.toList

def isConverted (m : Match) : Bool := m.second?.isSome

def intermediary? (m : Match) : Option Asset := m.second?.map fun _ => m.first.pair.asset2

def requestedPair : Match → AssetPair
  | .plain leg => leg.pair
  | .converted first second => ⟨first.pair.asset1, second.pair.asset2⟩

def same : Match → Match → Bool
  | .plain l, .plain m => l.same m
  | .converted l₁ l₂, .converted m₁ m₂ => l₁.same m₁ && l₂.same m₂
  | _, _ => false

def describe (m : Match) : String :=
  m.first.describe (match m.second? with
    | none => "None"
    | some second => "Some(" ++ second.describe "None" ++ ")")

def legMembers (l : Leg) (requested : AssetPair) (converted : Bool) (intermediary : Option Asset)
    (via : Option Json) (text : String) : Json :=
  .ofMembers
    [("provider", .str l.provider), ("network", l.network.toJson), ("pair", .str l.pair.render),
     ("provider_pair", .str l.providerPair.render), ("is_reversed", .bool l.isReversed),
     ("is_converted", .bool converted), ("intermediary", .orNull (intermediary.map Asset.toJson)),
     ("requested_pair", .str requested.render), ("via", .orNull via), ("debug", .str text)]

def toJson (m : Match) : Json :=
  legMembers m.first m.requestedPair m.isConverted m.intermediary?
    (m.second?.map fun l => legMembers l l.pair false none none (l.describe "None")) m.describe

end Match

end PriceDesk
