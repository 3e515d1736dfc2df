import PriceDesk.Proofs.Desk.Accounts
import PriceDesk.Proofs.Desk.AtRest

namespace PriceDesk

variable {ω : Type}

namespace PairMap

variable {m : PairMap Quote} {ps : List AssetPair}

/-- What a table has for some pairs, in their order, and those for which it has nothing. -/
def answerTo (m : PairMap Quote) (ps : List AssetPair) : Quotes where
  quotes := ps.filterMap m.get?
  missed := ps.filter fun p => (m.get? p).isNone

theorem quotes_of_nodup (filled : m.isEmpty = false) (distinct : ps.Nodup) (provider : String) :
    m.quotes provider (.pairs ps) = .ok (m.answerTo ps) := by
  simp only [quotes, filled, Bool.false_eq_true, if_false, split_pairs, eraseDups_of_nodup distinct,
    answerTo]

theorem Labelled.get?_answerTo (labelled : m.Labelled) (p : AssetPair) :
    (m.answerTo [p]).get? p = m.get? p := by
  cases got : m.get? p with
  | none => simp [answerTo, Quotes.get?, got]
  | some q =>
    have own : q.pair = p := labelled.of_get? got
    simp [answerTo, Quotes.get?, got, own]

theorem Labelled.mergeSingles (labelled : m.Labelled) (ps : List AssetPair) :
    Desk.mergeSingles ps (ps.map fun p => .ok (m.answerTo [p])) = .ok (m.answerTo ps) := by
  have found (p : AssetPair) : (Except.ok (ε := MarketError) (m.answerTo [p])).toOption.bind
      (·.get? p) = m.get? p := labelled.get?_answerTo p
  have sound : (ps.any fun _ => false) = false := List.any_eq_false.mpr nofun
  have missed : (ps.filterMap fun p => if (m.get? p).isNone then some p else none) =
      ps.filter fun p => (m.get? p).isNone := by
    rw [← List.filterMap_eq_filter]
    rfl
  simp only [Desk.mergeSingles, ← List.map_prod_left_eq_zip, List.map_map, Function.comp_def, found,
    List.filterMap_map, List.any_map, sound, missed, Bool.and_false, Bool.false_eq_true, if_false]
  rfl

end PairMap

def Provider.QuotesFrom (p : Provider ω) (m : PairMap Quote) (timeout : Duration) : Prop :=
  ∀ pricing, p.pricing = some pricing → ∀ requested now w,
    ((pricing.call requested).invoke p.id "get_pricing" timeout now w).1.Brings
      (m.quotes p.id requested)

def Provider.declaring (p : Provider ω) (features : PricingFeatures) : Provider ω :=
  { p with pricing := p.pricing.map ({ · with features }) }

variable {p : Provider ω} {m : PairMap Quote} {timeout : Duration}

theorem Provider.QuotesFrom.declaring (answers : p.QuotesFrom m timeout)
    (features : PricingFeatures) : (p.declaring features).QuotesFrom m timeout := by
  intro pricing quotes requested now w
  obtain ⟨pricing, own, rfl⟩ := Option.map_eq_some_iff.mp quotes
  exact answers pricing own requested now w

theorem SimulatedVenue.quotesFrom (v : SimulatedVenue) (i : Nat) (sound : v.failsPricing = false)
    (soon : v.latency ≤ timeout) : (v.provider i).QuotesFrom v.quotes timeout := by
  intro pricing quotes requested now w
  simp only [provider] at quotes
  split at quotes
  · cases quotes
    refine ⟨?_, now + v.latency, rfl, fun cutoff limit => ?_⟩
    · simp only [Call.invoke, call, pricingAnswer, sound, Bool.false_eq_true, if_false,
        PairMap.quotes]
      cases v.quotes.isEmpty <;> rfl
    · cases limit
      exact Nat.add_le_add_left soon now
  · cases quotes

namespace Desk

open PairMap (quotes_of_nodup)

variable {s s' : Setup ω} {network network' : Network} {ps : List AssetPair}

theorem quotesOnNetwork_eq (answers : p.QuotesFrom m s.quoteTimeout) (labelled : m.Labelled)
    (filled : m.isEmpty = false) (preferred : s.registry.preferred? network .pricing = some p)
    (d : Desk ω) (distinct : ps.Nodup) :
    (quotesOnNetwork s d network (.pairs ps)).1 = .ok (m.answerTo ps) := by
  have prices : p.pricing.isSome = true :=
    (Discovery.mem_having.mp (List.mem_of_find?_eq_some preferred)).2
  obtain ⟨pricing, quotes⟩ := Option.isSome_iff_exists.mp prices
  have brings := answers pricing quotes
  unfold quotesOnNetwork
  simp only [preferred, quotes]
  split
  · rw [← quotes_of_nodup filled distinct p.id]
    exact (brings (.pairs ps) d.floor.clock.now d.floor.world).conclude _
  · have each (pair : AssetPair) (now : Instant) (w : ω) :
        ((pricing.call (.single pair)).invoke p.id "get_pricing" s.quoteTimeout now w).1.Brings
          (.ok (m.answerTo [pair])) := by
      rw [← quotes_of_nodup filled (List.nodup_singleton pair) p.id]
      exact brings (.single pair) now w
    have called := d.floor.together_brings fun pair (_ : pair ∈ ps) => each pair
    simp only [called]
    exact labelled.mergeSingles ps

/-- Whatever a provider declares that it serves in one call, it gives the same quotes in the same
order and misses the same pairs. -/
theorem declared_features_change_no_answer (answers : p.QuotesFrom m s.quoteTimeout)
    (answers' : p.QuotesFrom m s'.quoteTimeout) (labelled : m.Labelled)
    (filled : m.isEmpty = false) {features features' : PricingFeatures}
    (preferred : s.registry.preferred? network .pricing = some (p.declaring features))
    (preferred' : s'.registry.preferred? network' .pricing = some (p.declaring features'))
    (d d' : Desk ω) (distinct : ps.Nodup) :
    ∃ answer, (quotesOnNetwork s d network (.pairs ps)).1 = .ok answer ∧
      (quotesOnNetwork s' d' network' (.pairs ps)).1 = .ok answer ∧
      answer.quotes = ps.filterMap m.get? ∧
      answer.missed = ps.filter fun pair => (m.get? pair).isNone := by
  have one := quotesOnNetwork_eq (answers.declaring features) labelled filled preferred d distinct
  have other :=
    quotesOnNetwork_eq (answers'.declaring features') labelled filled preferred' d' distinct
  exact ⟨m.answerTo ps, one, other, rfl, rfl⟩

def bulkSetup : Setup Street where
  registry := ⟨[(pairwiseVenue.provider 0).declaring { single := false, bulk := true }],
    List.pairwise_singleton _ _, List.pairwise_singleton _ _⟩
  listingTimeout := 1
  quoteTimeout := 1

/-- The venue quotes one of two pairs and misses the other, asked for both or for each. -/
theorem pairwise_venue_answers_alike :
    let ps := [AssetPair.of "ETH" "USD", .of "BTC" "USD"]
    (pairwiseVenue.provider 0).QuotesFrom pairwiseVenue.quotes 1 ∧
      pairwiseVenue.quotes.Labelled ∧ pairwiseVenue.quotes.isEmpty = false ∧
      bulkSetup.registry.preferred? ⟨"Pairwise"⟩ .pricing =
        some ((pairwiseVenue.provider 0).declaring { single := false, bulk := true }) ∧
      pairwiseSetup.registry.preferred? ⟨"Pairwise"⟩ .pricing =
        some ((pairwiseVenue.provider 0).declaring { single := true }) ∧
      ps.Nodup ∧
      ∃ answer, (quotesOnNetwork bulkSetup pairwiseDesk ⟨"Pairwise"⟩ (.pairs ps)).1 = .ok answer ∧
        (quotesOnNetwork pairwiseSetup pairwiseDesk ⟨"Pairwise"⟩ (.pairs ps)).1 = .ok answer ∧
        answer.quotes.length = 1 ∧ answer.missed = [.of "ETH" "USD"] := by
  intro ps
  have answers : (pairwiseVenue.provider 0).QuotesFrom pairwiseVenue.quotes
      bulkSetup.quoteTimeout := pairwiseVenue.quotesFrom 0 rfl (Nat.zero_le _)
  have answers' : (pairwiseVenue.provider 0).QuotesFrom pairwiseVenue.quotes
      pairwiseSetup.quoteTimeout := answers
  have preferred : bulkSetup.registry.preferred? ⟨"Pairwise"⟩ .pricing =
    some ((pairwiseVenue.provider 0).declaring { single := false, bulk := true }) := rfl
  have preferred' : pairwiseSetup.registry.preferred? ⟨"Pairwise"⟩ .pricing =
    some ((pairwiseVenue.provider 0).declaring { single := true }) := rfl
  have distinct : ps.Nodup := by decide
  obtain ⟨answer, bulk, single, quoted, missed⟩ :=
    declared_features_change_no_answer answers answers' pairwiseVenue.labelled_quotes rfl preferred
      preferred' pairwiseDesk pairwiseDesk distinct
  refine ⟨answers, pairwiseVenue.labelled_quotes, rfl, preferred, preferred', distinct, answer,
    bulk, single, ?_, ?_⟩
  · rw [quoted]
    rfl
  · rw [missed]
    rfl

end Desk

end PriceDesk
