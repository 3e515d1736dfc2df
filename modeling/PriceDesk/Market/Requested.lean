import PriceDesk.Market.Asset

namespace PriceDesk

inductive RequestedPairs where
  | all
  | pairs (ps : List AssetPair)
deriving DecidableEq

namespace RequestedPairs

def single (p : AssetPair) : RequestedPairs := .pairs [p]

def named : RequestedPairs → List AssetPair
  | .all => []
  | .pairs ps => ps

def isAll : RequestedPairs → Bool
  | .all => true
  | .pairs _ => false

def isSingle (r : RequestedPairs) : Bool := r.named.length == 1

def render : RequestedPairs → String
  | .all => "all"
  | .pairs ps => ",".intercalate (ps.map AssetPair.render)

end RequestedPairs

end PriceDesk
