import PriceDesk.Market.Volume

namespace PriceDesk

structure Level where
  price : Decimal
  amount : Decimal

def Level.toJson (l : Level) : Json :=
  .ofMembers [("price", l.price.toJson), ("amount", l.amount.toJson)]

structure OrderBook where
  network : Network
  pair : AssetPair
  bids : List Level
  asks : List Level

namespace OrderBook

def defaultCap : Nat := 1000

def depth (requested cap : Nat) : Nat := min requested cap

def truncate (b : OrderBook) (depth : Nat) : OrderBook :=
  { b with bids := b.bids.take depth, asks := b.asks.take depth }

def bestBid (b : OrderBook) : Option Level := b.bids.head?

def bestAsk (b : OrderBook) : Option Level := b.asks.head?

def isEmpty (b : OrderBook) : Bool := b.bids.isEmpty && b.asks.isEmpty

def toJson (b : OrderBook) : Json :=
  .ofMembers
    [("network", b.network.toJson), ("pair", b.pair.toJson),
     ("bids", .arr (b.bids.map Level.toJson)), ("asks", .arr (b.asks.map Level.toJson))]

end OrderBook

end PriceDesk
