import PriceDesk.Market.Latest

namespace PriceDesk

abbrev PriceResult := Except MarketError LatestPrice

structure Completion where
  key : RequestKey
  result : PriceResult

/-- The latest completions of as many requests as there is room for. -/
structure LastResults where
  capacity : Nat
  entries : List Completion := []
  order : List RequestKey := []

namespace LastResults

def defaultCapacity : Nat := 1024

def get? (l : LastResults) (key : RequestKey) : Option Completion :=
  l.entries.find? (·.key == key)

def erase (key : RequestKey) (entries : List Completion) : List Completion :=
  entries.filter (·.key != key)

/-- Forgets requests in their order while there are more entries than there is room for. -/
def makeRoom (capacity : Nat) :
    List RequestKey → List Completion → List RequestKey × List Completion
  | [], entries => ([], entries)
  | oldest :: order, entries =>
    if capacity < entries.length then makeRoom capacity order (erase oldest entries)
    else (oldest :: order, entries)

def insert (l : LastResults) (c : Completion) : LastResults :=
  let known := (l.get? c.key).isSome
  let order := (if known then l.order.filter (· != c.key) else l.order) ++ [c.key]
  let (order, entries) := makeRoom l.capacity order (c :: erase c.key l.entries)
  { l with order, entries }

end LastResults

/-- Completions on their way to a listener, the oldest first. -/
structure Feed where
  completions : List Completion := []

namespace Feed

def capacity : Nat := 256

def push (f : Feed) (c : Completion) : Feed := ⟨f.completions ++ [c]⟩

def lost (f : Feed) : Nat := f.completions.length - capacity

def received (f : Feed) : List Completion := f.completions.drop f.lost

end Feed

end PriceDesk
