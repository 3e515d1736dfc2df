import PriceDesk.Desk.Aggregate
import PriceDesk.Proofs.Discovery.BestMatch
import PriceDesk.Proofs.Market.Division
import PriceDesk.Venue.Simulated

namespace PriceDesk

theorem eraseDups_of_nodup {α : Type} [BEq α] [LawfulBEq α] {as : List α} (distinct : as.Nodup) :
    as.eraseDups = as := by
  induction as with
  | nil => rfl
  | cons a as ih =>
    obtain ⟨new, distinct⟩ := List.nodup_cons.mp distinct
    have others : as.filter (fun b => !b == a) = as := by
      refine List.filter_eq_self.mpr fun b member => ?_
      simpa using ne_of_mem_of_not_mem member new
    rw [List.eraseDups_cons, others, ih distinct]

namespace Quotes

def entries (a : Quotes) (p : AssetPair) : Nat := a.quotes.countP (·.pair == p) + a.missed.count p

def Accounts (a : Quotes) (ps : List AssetPair) : Prop := ∀ p ∈ ps, a.entries p = 1

def gather (found : List (AssetPair × Option Quote)) : Quotes where
  quotes := found.filterMap (·.2)
  missed := found.filterMap fun (pair, quote) => if quote.isNone then some pair else none

theorem entries_gather {found : List (AssetPair × Option Quote)}
    (labelled : ∀ x ∈ found, ∀ q, x.2 = some q → q.pair = x.1) (p : AssetPair) :
    (gather found).entries p = (found.map (·.1)).count p := by
  induction found with
  | nil => rfl
  | cons x found ih =>
    have rest := ih fun y member => labelled y (List.mem_cons_of_mem _ member)
    obtain ⟨pair, quote⟩ := x
    simp only [gather, entries] at rest
    cases quote with
    | none =>
      simp only [gather, entries, List.filterMap_cons, Option.isNone_none, if_true, List.map_cons,
        List.count_cons] at rest ⊢
      omega
    | some q =>
      have same : q.pair = pair := labelled _ List.mem_cons_self q rfl
      simp only [gather, entries, List.filterMap_cons, Option.isNone_some, Bool.false_eq_true,
        if_false, List.countP_cons, List.map_cons, List.count_cons, same] at rest ⊢
      omega

end Quotes

namespace PairMap

variable {α β : Type}

def Labelled (m : PairMap Quote) : Prop := ∀ x ∈ m.entries, x.2.pair = x.1

theorem Labelled.of_get? {m : PairMap Quote} (labelled : m.Labelled) {p : AssetPair} {q : Quote}
    (got : m.get? p = some q) : q.pair = p :=
  labelled (p, q) (mem_of_get? got)

theorem labelled_filterMap {m : PairMap α} {f : AssetPair → α → Option Quote}
    (labels : ∀ p v q, f p v = some q → q.pair = p) : (m.filterMap f).Labelled := by
  intro x member
  obtain ⟨⟨p, v⟩, _, made⟩ := List.mem_filterMap.mp member
  obtain ⟨q, value, rfl⟩ := Option.map_eq_some_iff.mp made
  exact labels p v q value

def look (m : PairMap Quote) (ps : List AssetPair) : List (AssetPair × Option Quote) :=
  ps.map fun p => (p, m.get? p)

theorem gather_of_quotes {m : PairMap Quote} {provider : String} {ps : List AssetPair} {a : Quotes}
    (answers : m.quotes provider (.pairs ps) = .ok a) : a = .gather (m.look ps.eraseDups) := by
  rw [quotes, split_pairs] at answers
  split at answers
  · cases answers
  · cases answers
    simp only [Quotes.gather, look, List.filterMap_map, Function.comp_def, Quotes.mk.injEq,
      true_and]
    induction ps.eraseDups with
    | nil => rfl
    | cons p ps ih => cases got : m.get? p <;> simp [got, ih]

theorem Labelled.accounts {m : PairMap Quote} (labelled : m.Labelled) {provider : String}
    {ps : List AssetPair} {a : Quotes} (answers : m.quotes provider (.pairs ps) = .ok a) :
    a.Accounts ps := by
  intro p member
  have names : (m.look ps.eraseDups).map (·.1) = ps.eraseDups := by
    simp [look, Function.comp_def]
  have labels : ∀ x ∈ m.look ps.eraseDups, ∀ q, x.2 = some q → q.pair = x.1 := by
    intro x there q got
    obtain ⟨p, _, rfl⟩ := List.mem_map.mp there
    exact labelled.of_get? got
  rw [gather_of_quotes answers, Quotes.entries_gather labels, names]
  exact List.count_eq_one_of_mem (nodup_eraseDups ps) (List.mem_eraseDups.mpr member)

end PairMap

section Calls

variable {ω α ε : Type}

theorem Pending.outcome_of_poll {p : Pending ε α} {now : Instant} {a : α}
    (there : p.poll now = some (.ok a)) : p.outcome = .ok a := by
  unfold poll at there
  split at there
  · exact Option.some.inj there
  · obtain ⟨⟨t, e⟩, _, late⟩ := Option.bind_eq_some_iff.mp there
    simp only at late
    split at late <;> cases late

theorem Pending.outcome_of_conclude {p : Pending ε α} {now : Instant} {a : α}
    (ends : (p.conclude now).2 = .ok a) : p.outcome = .ok a := by
  unfold conclude at ends
  split at ends
  · next r there => exact outcome_of_poll (there.trans (congrArg some ends))
  · cases there : p.poll ((earliest? p.wakes).getD now) with
    | none => simpa [there] using ends
    | some r => exact outcome_of_poll (there.trans (by simpa [there] using ends))

theorem Call.reply_of_invoke {call : Call ω α} {provider method : String} {timeout : Duration}
    {now : Instant} {w : ω} {a : α}
    (answers : (call.invoke provider method timeout now w).1.outcome = .ok a) :
    (call (some timeout) now w).1.outcome = .ok a := by
  simp only [invoke] at answers
  split at answers
  · cases answers
  · exact answers

theorem Floor.length_together (f : Floor ω)
    (calls : List (Instant → ω → Pending MarketError α × ω)) :
    (f.together calls).1.length = calls.length := by
  have begun (w : ω) : (beginAll f.clock.now w calls).1.length = calls.length := by
    induction calls generalizing w with
    | nil => rfl
    | cons call calls ih => simp only [beginAll, List.length_cons, ih]
  simp only [together, List.length_map, begun]

end Calls

def Pricing.KeepsAccounts {ω : Type} (pricing : Pricing ω) : Prop :=
  ∀ ps patience now w a,
    (pricing.call (.pairs ps) patience now w).1.outcome = .ok a → a.Accounts ps

theorem SimulatedVenue.labelled_quotes (v : SimulatedVenue) : v.quotes.Labelled := by
  refine PairMap.labelled_filterMap fun p t q made => ?_
  cases made
  simp only [Quote.withVolume, Quote.withStatistics]

theorem SimulatedVenue.keepsAccounts (v : SimulatedVenue) {i : Nat} {pricing : Pricing Street}
    (prices : (v.provider i).pricing = some pricing) : pricing.KeepsAccounts := by
  intro ps patience now w a answers
  simp only [provider] at prices
  split at prices
  · cases prices
    simp only [call, pricingAnswer] at answers
    split at answers
    · cases answers
    · exact v.labelled_quotes.accounts answers
  · cases prices

namespace Desk

variable {ω : Type} {s : Setup ω} {d : Desk ω} {network : Network} {ps : List AssetPair}

theorem entries_mergeSingles {answers : List (Except MarketError Quotes)} {merged : Quotes}
    (all : answers.length = ps.length) (merges : mergeSingles ps answers = .ok merged)
    (p : AssetPair) : merged.entries p = ps.count p := by
  let found := (ps.zip answers).map fun x => (x.1, x.2.toOption.bind (·.get? x.1))
  have gathered : merged = .gather found := by
    simp only [mergeSingles] at merges
    split at merges
    · cases merges
    · cases merges
      rfl
  have names : found.map (·.1) = ps := by
    simp only [found, List.map_map, Function.comp_def]
    exact List.map_fst_zip (Nat.le_of_eq all.symm)
  rw [gathered, Quotes.entries_gather ?_, names]
  -- What is looked up in an answer is labelled, whatever else the answer holds.
  intro x member q got
  obtain ⟨⟨p, answer⟩, _, rfl⟩ := List.mem_map.mp member
  obtain ⟨quotes, _, got⟩ := Option.bind_eq_some_iff.mp got
  have named := List.find?_some got
  exact beq_iff_eq.mp named

/-- One call accounts for a pair once, whereas singly asked pairs are accounted for as often as
they were named. -/
theorem answers_account_for_pairs
    (contract : ∀ p ∈ s.registry.providers, ∀ pricing, p.pricing = some pricing →
      pricing.KeepsAccounts)
    {answer : Quotes} (answered : (quotesOnNetwork s d network (.pairs ps)).1 = .ok answer) :
    ∃ p pricing, s.registry.preferred? network .pricing = some p ∧ p.pricing = some pricing ∧
      (∀ pair ∈ ps, answer.entries pair =
        if pricing.features.supports (.pairs ps) then 1 else ps.count pair) ∧
      (answer.Accounts ps ↔ pricing.features.supports (.pairs ps) = true ∨ ps.Nodup) := by
  unfold quotesOnNetwork at answered
  simp only at answered
  split at answered
  · cases answered
  next p preferred =>
  split at answered
  · cases answered
  next pricing prices =>
  refine ⟨p, pricing, preferred, prices, ?_⟩
  split at answered
  · next supported =>
    have keeps : answer.Accounts ps := by
      have member := Discovery.mem_of_preferred? preferred
      exact contract p member pricing prices ps _ _ _ answer
        (Call.reply_of_invoke (Pending.outcome_of_conclude answered))
    simp only [supported, if_true, true_or, iff_true]
    exact ⟨keeps, keeps⟩
  · next unsupported =>
    have counts := entries_mergeSingles
      ((Floor.length_together _ _).trans (List.length_map _)) answered
    refine ⟨fun pair _ => (counts pair).trans (if_neg unsupported).symm, ?_⟩
    simp only [Quotes.Accounts, counts, unsupported, Bool.false_eq_true, false_or]
    exact (List.nodup_iff_count_eq_one (l := ps)).symm

def pairwiseVenue : SimulatedVenue where
  id := "pairwise"
  network := ⟨"Pairwise"⟩
  tickers := ⟨[(.of "BTC" "USD", { price := .one })]⟩
  features := { single := true }

def pairwiseSetup : Setup Street where
  registry := ⟨[pairwiseVenue.provider 0], List.pairwise_singleton _ _, List.pairwise_singleton _ _⟩
  listingTimeout := 1
  quoteTimeout := 1

def pairwiseDesk : Desk Street := { floor := { world := .of [.free], listings := { ttl := 1 } } }

def answerToBoth : Except MarketError Quotes :=
  (quotesOnNetwork pairwiseSetup pairwiseDesk ⟨"Pairwise"⟩
    (.pairs [.of "BTC" "USD", .of "BTC" "USD"])).1

theorem pairwise_contract : ∀ p ∈ pairwiseSetup.registry.providers, ∀ pricing,
    p.pricing = some pricing → pricing.KeepsAccounts := by
  intro p member pricing prices
  cases List.mem_singleton.mp member
  exact pairwiseVenue.keepsAccounts prices

/-- A pair that is named twice and asked for singly is quoted twice. -/
theorem repeated_pair_is_quoted_twice : ∃ answer, answerToBoth = .ok answer ∧
    (∀ p ∈ pairwiseSetup.registry.providers, ∀ pricing, p.pricing = some pricing →
      pricing.KeepsAccounts) ∧
    answer.entries (.of "BTC" "USD") = 2 ∧
      ¬ answer.Accounts [.of "BTC" "USD", .of "BTC" "USD"] := by
  refine ⟨_, rfl, pairwise_contract, by rfl, fun accounts => ?_⟩
  exact absurd (accounts _ List.mem_cons_self) (by decide)

/-- A pair that is named twice to a venue that quotes one pair in a call is accounted for twice. -/
theorem answer_to_both_accounts_for_it : ∃ answer, answerToBoth = .ok answer ∧
    ∃ p pricing, pairwiseSetup.registry.preferred? ⟨"Pairwise"⟩ .pricing = some p ∧
      p.pricing = some pricing ∧
      (answer.Accounts [.of "BTC" "USD", .of "BTC" "USD"] ↔
        pricing.features.supports (.pairs [.of "BTC" "USD", .of "BTC" "USD"]) = true ∨
          [AssetPair.of "BTC" "USD", .of "BTC" "USD"].Nodup) := by
  have answered : answerToBoth = .ok _ := rfl
  obtain ⟨p, pricing, preferred, prices, _, accounts⟩ :=
    answers_account_for_pairs pairwise_contract answered
  exact ⟨_, answered, p, pricing, preferred, prices, accounts⟩

end Desk

end PriceDesk
