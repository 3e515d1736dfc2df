import PriceDesk.Market.Quote
import PriceDesk.Market.Requested

namespace PriceDesk

/-- One value for each of some pairs. -/
structure PairMap (α : Type) where
  entries : List (AssetPair × α) := []

namespace PairMap

variable {α β : Type}

def empty : PairMap α := {}

def isEmpty (m : PairMap α) : Bool := m.entries.isEmpty

def get? (m : PairMap α) (p : AssetPair) : Option α := m.entries.lookup p

def insert (m : PairMap α) (p : AssetPair) (value : α) : PairMap α :=
  ⟨(p, value) :: m.entries.filter (·.1 != p)⟩

def remove (m : PairMap α) (p : AssetPair) : Option α × PairMap α :=
  (m.get? p, ⟨m.entries.filter (·.1 != p)⟩)

def ofList (entries : List (AssetPair × α)) : PairMap α :=
  entries.foldl (fun m (p, value) => m.insert p value) empty

def filterMap (f : AssetPair → α → Option β) (m : PairMap α) : PairMap β :=
  ⟨m.entries.filterMap fun (p, value) => (f p value).map (p, ·)⟩

def sorted (m : PairMap α) : List (AssetPair × α) :=
  m.entries.mergeSort fun a b => (a.1.compare b.1).isLE

/-- How far the pairs that a request names have been gone through. -/
structure Division (α : Type) where
  seen : List AssetPair := []
  rest : PairMap α
  found : List α := []
  missed : List AssetPair := []

/-- One more pair takes its value out of the rest; a pair that has been seen is passed over. -/
def Division.take (d : Division α) (p : AssetPair) : Division α :=
  if d.seen.contains p then d
  else
    let seen := p :: d.seen
    match d.rest.remove p with
    | (some value, rest) => { d with seen, rest, found := d.found ++ [value] }
    | (none, rest) => { d with seen, rest, missed := d.missed ++ [p] }

/-- The values found for a request, and the named pairs that have none. -/
def split (m : PairMap α) : RequestedPairs → List α × List AssetPair
  | .all => (m.sorted.map (·.2), [])
  | .pairs ps =>
    let d := ps.foldl Division.take { rest := m }
    (d.found, d.missed)

def quotes (m : PairMap Quote) (provider : String) (requested : RequestedPairs) :
    Except MarketError Quotes :=
  if m.isEmpty then .error (.providerResponse provider "get_pricing" "No tickers returned")
  else
    let (quotes, missed) := m.split requested
    .ok { quotes, missed }

def volumes (m : PairMap TradedVolume) (provider : String) (requested : RequestedPairs) :
    Except MarketError TradedVolumes :=
  if m.isEmpty then .error (.providerResponse provider "get_volume" "No volume data returned")
  else
    let (volumes, missed) := m.split requested
    .ok { volumes, missed }

end PairMap

end PriceDesk
