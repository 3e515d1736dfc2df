import PriceDesk.Pacing.Script
import PriceDesk.Provider.Basic
import PriceDesk.Venue.Street

namespace PriceDesk

structure ScriptedResponse (α : Type) where
  latency : Duration := 0
  outcome : Except MarketError α

structure BookSides where
  bids : List Level
  asks : List Level

/-- A venue with a script for each capability that it has. -/
structure ScriptedVenue where
  id : String
  network : Network
  title : String
  priority : Int := 100
  direct : Bool := true
  disabled : Bool := false
  features : PricingFeatures := {}
  listing : Option (List (ScriptedResponse Listing)) := none
  pricing : Option (List (ScriptedResponse Quotes)) := none
  orderBook : Option (List (ScriptedResponse BookSides)) := none
  volume : Option (List (ScriptedResponse TradedVolumes)) := none

namespace ScriptedVenue

def call {α β : Type} (script : List (ScriptedResponse α)) (position : Street → Nat)
    (count : Street → Street) (line : String) (finish : α → β) : Call Street β :=
  fun _ _ w =>
    let reply : Reply β :=
      match atOrLast? script (position w) with
      | some r => ⟨some r.latency, r.outcome.map finish⟩
      | none => .now (.error .noProvidersAvailable)
    (reply, (count w).note line)

def provider (v : ScriptedVenue) (i : Nat) : Provider Street where
  id := v.id
  network := v.network
  title := v.title
  priority := v.priority
  direct := v.direct
  disabled := v.disabled
  listing := v.listing.map fun script =>
    call script (·.tally i |>.listing) (·.countListing i) s!"{v.id}.pairs()" fun listing => listing
  pricing := v.pricing.map fun script =>
    { features := v.features
      call := fun requested =>
        call script (·.tally i |>.pricing) (·.countPricing i)
          s!"{v.id}.pricing({requested.render})" fun quotes => quotes }
  orderBook := v.orderBook.map fun script pair depth =>
    call script (·.tally i |>.orderBook) (·.countOrderBook i)
      s!"{v.id}.order_book({pair},{depth})" fun sides =>
        { network := v.network, pair, bids := sides.bids, asks := sides.asks }
  volumes := v.volume.map fun script =>
    { features := {}
      call := fun requested =>
        call script (·.tally i |>.volume) (·.countVolume i)
          s!"{v.id}.volume({requested.render})" fun volumes => volumes }

end ScriptedVenue

end PriceDesk
