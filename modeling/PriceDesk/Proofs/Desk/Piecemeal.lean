import PriceDesk.Proofs.Desk.Hearing
import PriceDesk.Venue.Scripted

namespace PriceDesk

variable {ω : Type}

def quoteFor (x : AssetPair × Except MarketError Quotes) : Option Quote :=
  x.2.toOption.bind (·.get? x.1)

def Fruitless (ps : List AssetPair) (answers : List (Except MarketError Quotes)) : Prop :=
  (∃ e, .error e ∈ answers) ∧ ∀ x ∈ ps.zip answers, quoteFor x = none

def Pricing.Answers (pricing : Pricing ω) (provider : String) (timeout : Duration) (now : Instant)
    (pair : AssetPair) (answer : Except MarketError Quotes) : Prop :=
  ∃ w, answer = (pricing.call (.single pair) (some timeout) now w).1.within provider "get_pricing"
    timeout

/-- How a request for pairs comes out, for what a call for each of them comes to. -/
structure Piecemeal (ps : List AssetPair) (answers : List (Except MarketError Quotes))
    (isServed : Bool) (outcome : Except MarketError Quotes) : Prop where
  failed : (∃ e, outcome = .error e) ↔ Fruitless ps answers
  refused : outcome = .error .allProvidersFailed → ps ≠ [] ∧ Fruitless ps answers
  allFailed : ps ≠ [] → (∀ a ∈ answers, ∃ e, a = .error e) → ∃ e, outcome = .error e
  served : isServed = true → answers = [outcome]
  blamed : isServed = false → ∀ e, outcome = .error e → e = .allProvidersFailed
  merged : isServed = false → ∀ a, outcome = .ok a →
    a.quotes = (ps.zip answers).filterMap quoteFor ∧
      a.missed = ((ps.zip answers).filter fun x => (quoteFor x).isNone).map (·.1)

section Outcomes

variable {ps : List AssetPair} {answers : List (Except MarketError Quotes)}
  {outcome : Except MarketError Quotes} {isServed : Bool}

theorem quoteFor_error (pair : AssetPair) (e : MarketError) : quoteFor (pair, .error e) = none := rfl

theorem fruitless_of_failed (asked : ps.length = answers.length) (some : ps ≠ [])
    (each : ∀ a ∈ answers, ∃ e, a = .error e) : Fruitless ps answers := by
  refine ⟨?_, fun x member => ?_⟩
  · have answered : answers ≠ [] := by
      rintro rfl
      exact some (List.length_eq_zero_iff.mp asked)
    obtain ⟨a, member⟩ := List.exists_mem_of_ne_nil answers answered
    obtain ⟨e, rfl⟩ := each a member
    exact ⟨e, member⟩
  · obtain ⟨pair, a⟩ := x
    obtain ⟨e, rfl⟩ := each a (List.of_mem_zip member).2
    exact quoteFor_error pair e

theorem Fruitless.asked (fruitless : Fruitless ps answers)
    (asked : ps.length = answers.length) : ps ≠ [] := by
  obtain ⟨⟨e, member⟩, _⟩ := fruitless
  rintro rfl
  rw [List.length_eq_zero_iff.mp asked.symm] at member
  cases member

theorem fruitless_single {pair : AssetPair} :
    Fruitless [pair] [outcome] ↔ ∃ e, outcome = .error e := by
  constructor
  · rintro ⟨⟨e, member⟩, _⟩
    exact ⟨e, (List.mem_singleton.mp member).symm⟩
  · rintro ⟨e, rfl⟩
    exact fruitless_of_failed rfl (List.cons_ne_nil _ _)
      fun a member => ⟨e, List.mem_singleton.mp member⟩

theorem Piecemeal.of_served (pair : AssetPair) (outcome : Except MarketError Quotes) :
    Piecemeal [pair] [outcome] true outcome where
  failed := fruitless_single.symm
  refused fails := ⟨List.cons_ne_nil _ _, fruitless_single.mpr ⟨_, fails⟩⟩
  allFailed _ each := each outcome List.mem_cons_self
  served _ := rfl
  blamed := nofun
  merged := nofun

namespace Desk

theorem any_failed_iff : (answers.any fun | .ok _ => false | .error _ => true) = true ↔
    ∃ e, .error e ∈ answers := by
  rw [List.any_eq_true]
  constructor
  · rintro ⟨a, member, fails⟩
    cases a with
    | ok a => cases fails
    | error e => exact ⟨e, member⟩
  · rintro ⟨e, member⟩
    exact ⟨_, member, rfl⟩

theorem filterMap_missed (found : List (AssetPair × Except MarketError Quotes)) :
    (found.filterMap fun x => if (quoteFor x).isNone then some x.1 else none) =
      (found.filter fun x => (quoteFor x).isNone).map (·.1) := by
  rw [← List.filterMap_eq_map, List.filterMap_filter]
  rfl

theorem mergeSingles_eq (ps : List AssetPair) (answers : List (Except MarketError Quotes)) :
    mergeSingles ps answers = .error .allProvidersFailed ∧ Fruitless ps answers ∨
      mergeSingles ps answers = .ok
        { quotes := (ps.zip answers).filterMap quoteFor
          missed := ((ps.zip answers).filter fun x => (quoteFor x).isNone).map (·.1) } ∧
        ¬ Fruitless ps answers := by
  have fruitless_iff : (((ps.zip answers).filterMap quoteFor).isEmpty &&
      answers.any fun | .ok _ => false | .error _ => true) = true ↔ Fruitless ps answers := by
    rw [Bool.and_eq_true, List.isEmpty_iff, List.filterMap_eq_nil_iff, any_failed_iff, and_comm]
    rfl
  rw [← filterMap_missed]
  have found : mergeSingles ps answers =
      if ((ps.zip answers).filterMap quoteFor).isEmpty &&
          answers.any fun | .ok _ => false | .error _ => true then .error .allProvidersFailed
      else .ok
        { quotes := (ps.zip answers).filterMap quoteFor
          missed := (ps.zip answers).filterMap fun x =>
            if (quoteFor x).isNone then some x.1 else none } := by
    simp only [mergeSingles, List.filterMap_map]
    rfl
  rw [found]
  split
  · next both => exact .inl ⟨rfl, fruitless_iff.mp both⟩
  · next other => exact .inr ⟨rfl, fun fruitless => other (fruitless_iff.mpr fruitless)⟩

theorem mergeSingles_piecemeal (asked : ps.length = answers.length) :
    Piecemeal ps answers false (mergeSingles ps answers) := by
  rcases mergeSingles_eq ps answers with ⟨same, fruitless⟩ | ⟨same, fruitful⟩
  all_goals rw [same]
  · exact {
      failed := iff_of_true ⟨_, rfl⟩ fruitless
      refused := fun _ => ⟨fruitless.asked asked, fruitless⟩
      allFailed := fun _ _ => ⟨_, rfl⟩
      served := nofun
      blamed := fun _ e fails => (Except.error.inj fails).symm
      merged := nofun }
  · exact {
      failed := iff_of_false nofun fruitful
      refused := nofun
      allFailed := fun some each => absurd (fruitless_of_failed asked some each) fruitful
      served := nofun
      blamed := nofun
      merged := fun _ a ok => by
        cases ok
        exact ⟨rfl, rfl⟩ }

end Desk

end Outcomes

namespace Desk

variable {s : Setup ω} {network : Network}

theorem exists_of_supports {features : PricingFeatures} {ps : List AssetPair}
    (piecemeal : features.bulk = false) (supported : features.supports (.pairs ps) = true) :
    ∃ pair, ps = [pair] := by
  unfold PricingFeatures.supports at supported
  split at supported
  · next all => cases all
  · next pair one => exact ⟨pair, RequestedPairs.pairs.inj one⟩
  · cases piecemeal.symm.trans supported

/-- Whatever a provider without bulk service answers to the calls for single pairs, the prices of
its network are refused only where some call fails and none brings a quote. -/
theorem piecemeal_prices_come_out {p : Provider ω} {pricing : Pricing ω}
    (preferred : s.registry.preferred? network .pricing = some p)
    (prices : p.pricing = some pricing) (piecemeal : pricing.features.bulk = false)
    (d : Desk ω) (ps : List AssetPair) :
    ∃ answers,
      List.Forall₂ (pricing.Answers p.id s.quoteTimeout d.floor.clock.now) ps answers ∧
      Piecemeal ps answers (pricing.features.supports (.pairs ps))
        (quotesOnNetwork s d network (.pairs ps)).1 := by
  let ask (pair : AssetPair) :=
    (pricing.call (.single pair)).invoke p.id "get_pricing" s.quoteTimeout
  have heard := d.floor.together_concludes ask ps
  simp only [ask, Call.conclude_invoke] at heard
  refine ⟨(d.floor.together (ps.map ask)).1, heard, ?_⟩
  unfold quotesOnNetwork
  simp only [preferred, prices]
  cases supported : pricing.features.supports (.pairs ps) with
  | true =>
    -- The one call that is made is the call for the only pair.
    obtain ⟨pair, rfl⟩ := exists_of_supports piecemeal supported
    exact .of_served pair _
  | false => exact mergeSingles_piecemeal heard.length_eq

def haltingVenue (script : List (ScriptedResponse Quotes)) : ScriptedVenue where
  id := "halting"
  network := ⟨"Halting"⟩
  title := "Halting"
  pricing := some script

def haltingSetup (script : List (ScriptedResponse Quotes)) : Setup Street where
  registry := ⟨[(haltingVenue script).provider 0], List.pairwise_singleton _ _,
    List.pairwise_singleton _ _⟩
  listingTimeout := 1
  quoteTimeout := 1

def haltingDesk : Desk Street := { floor := { world := .of [.free], listings := { ttl := 1 } } }

def missing (pair : AssetPair) : ScriptedResponse Quotes := { outcome := .ok { missed := [pair] } }

def failing : ScriptedResponse Quotes := { outcome := .error (.rateLimited "halting") }

/-- One call succeeds and misses its pair, and the other one fails: nobody answers, it is said. -/
theorem miss_beside_failure_is_refused :
    let script := [missing (.of "BTC" "USD"), failing]
    let ps := [AssetPair.of "BTC" "USD", .of "ETH" "USD"]
    ∃ pricing, ((haltingVenue script).provider 0).pricing = some pricing ∧
      pricing.features.bulk = false ∧
      (haltingDesk.floor.together (ps.map fun pair =>
        (pricing.call (.single pair)).invoke "halting" "get_pricing" 1)).1 =
          [.ok { missed := [.of "BTC" "USD"] }, .error (.rateLimited "halting")] ∧
      (quotesOnNetwork (haltingSetup script) haltingDesk ⟨"Halting"⟩ (.pairs ps)).1 =
        .error .allProvidersFailed :=
  ⟨_, rfl, rfl, rfl, rfl⟩

def coinQuote : Quote := { network := ⟨"Halting"⟩, pair := .of "BTC" "USD", price := .one }

def mixedScript : List (ScriptedResponse Quotes) :=
  [{ outcome := .ok { quotes := [coinQuote] } }, missing (.of "ETH" "USD"), failing]

def mixedOutcome : Except MarketError Quotes :=
  (quotesOnNetwork (haltingSetup mixedScript) haltingDesk ⟨"Halting"⟩
    (.pairs [.of "BTC" "USD", .of "ETH" "USD", .of "LTC" "USD"])).1

/-- Beside a quote, the pair that is missed and the one whose call fails are both missed. -/
theorem mixed_prices_come_out :
    ∃ p pricing, (haltingSetup mixedScript).registry.preferred? ⟨"Halting"⟩ .pricing = some p ∧
      p.pricing = some pricing ∧ pricing.features.bulk = false ∧
      (∃ answers, List.Forall₂ (pricing.Answers p.id 1 0)
          [.of "BTC" "USD", .of "ETH" "USD", .of "LTC" "USD"] answers ∧
        Piecemeal [.of "BTC" "USD", .of "ETH" "USD", .of "LTC" "USD"] answers false mixedOutcome) ∧
      mixedOutcome = .ok { quotes := [coinQuote], missed := [.of "ETH" "USD", .of "LTC" "USD"] } := by
  have preferred : (haltingSetup mixedScript).registry.preferred? ⟨"Halting"⟩ .pricing = some _ :=
    rfl
  have prices : ((haltingVenue mixedScript).provider 0).pricing = some _ := rfl
  exact ⟨_, _, preferred, prices, rfl,
    piecemeal_prices_come_out preferred prices rfl haltingDesk _, rfl⟩

end Desk

end PriceDesk
