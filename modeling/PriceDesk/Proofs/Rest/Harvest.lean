import Mathlib.Data.List.Induction
import PriceDesk.Proofs.Desk.Accounts
import PriceDesk.Rest.Adapter

namespace PriceDesk

def Last {α : Type} (P : α → Prop) (as : List α) (a : α) : Prop :=
  P a ∧ ∃ before after, as = before ++ a :: after ∧ ∀ b ∈ after, ¬ P b

section Last

variable {α : Type} {P : α → Prop} {as : List α} {a b : α}

theorem not_last_nil : ¬ Last P [] a := by
  rintro ⟨_, before, after, split, _⟩
  simp at split

theorem last_concat_iff : Last P (as ++ [b]) a ↔ P b ∧ a = b ∨ ¬ P b ∧ Last P as a := by
  constructor
  · rintro ⟨such, before, after, split, none⟩
    rcases List.eq_nil_or_concat' after with rfl | ⟨after, c, rfl⟩
    · obtain ⟨_, same⟩ := List.append_inj' split rfl
      cases same
      exact .inl ⟨such, rfl⟩
    · have whole : as ++ [b] = (before ++ a :: after) ++ [c] := by simpa using split
      obtain ⟨rfl, same⟩ := List.append_inj' whole rfl
      cases same
      refine .inr ⟨none b (by simp), such, before, after, rfl, fun d member => none d ?_⟩
      exact List.mem_append_left _ member
  · rintro (⟨such, rfl⟩ | ⟨other, such, before, after, rfl, none⟩)
    · exact ⟨such, as, [], rfl, nofun⟩
    · refine ⟨such, before, after ++ [b], by simp, fun d member => ?_⟩
      rcases List.mem_append.mp member with earlier | here
      · exact none d earlier
      · exact List.mem_singleton.mp here ▸ other

theorem Last.mem (last : Last P as a) : a ∈ as := by
  obtain ⟨_, before, after, rfl, _⟩ := last
  exact List.mem_append_right _ List.mem_cons_self

theorem exists_last_iff : (∃ a, Last P as a) ↔ ∃ a ∈ as, P a := by
  refine ⟨fun ⟨a, last⟩ => ⟨a, last.mem, last.1⟩, ?_⟩
  induction as using List.reverseRecOn with
  | nil => exact fun ⟨a, member, _⟩ => absurd member List.not_mem_nil
  | append_singleton as b ih =>
    rintro ⟨a, member, such⟩
    by_cases last : P b
    · exact ⟨b, last_concat_iff.mpr (.inl ⟨last, rfl⟩)⟩
    · rcases List.mem_append.mp member with earlier | here
      · obtain ⟨c, found⟩ := ih ⟨a, earlier, such⟩
        exact ⟨c, last_concat_iff.mpr (.inr ⟨last, found⟩)⟩
      · exact absurd (List.mem_singleton.mp here ▸ such) last

end Last

namespace PairMap

variable {α β : Type} {m : PairMap α} {p q : AssetPair} {v : α}

theorem get?_insert : (m.insert p v).get? q = if q = p then some v else m.get? q := by
  by_cases same : q = p
  · rw [if_pos same, get?, insert, List.lookup_cons, beq_iff_eq.mpr same]
  · rw [if_neg same, get?, insert, List.lookup_cons, beq_eq_false_iff_ne.mpr same,
      lookup_filter_ne same, get?]

theorem get?_filterMap (f : AssetPair → α → β) (m : PairMap α) (p : AssetPair) :
    (m.filterMap fun p v => some (f p v)).get? p = (m.get? p).map (f p) := by
  obtain ⟨entries⟩ := m
  simp only [get?, filterMap, Option.map_some, List.filterMap_eq_map']
  induction entries with
  | nil => rfl
  | cons entry entries ih =>
    obtain ⟨q, v⟩ := entry
    by_cases same : p = q
    · simp [same]
    · simp [List.lookup_cons, beq_eq_false_iff_ne.mpr same, ih]

theorem isEmpty_iff_get? : m.isEmpty = true ↔ ∀ p, m.get? p = none := by
  obtain ⟨entries⟩ := m
  cases entries with
  | nil => exact iff_of_true rfl fun _ => rfl
  | cons entry entries =>
    refine iff_of_false nofun fun none => ?_
    simpa [get?, List.lookup_cons] using none entry.1

theorem isEmpty_filterMap (f : AssetPair → α → β) (m : PairMap α) :
    (m.filterMap fun p v => some (f p v)).isEmpty = m.isEmpty := by
  rw [Bool.eq_iff_iff, isEmpty_iff_get?, isEmpty_iff_get?]
  simp only [get?_filterMap, Option.map_eq_none_iff]

theorem mem_split_fst {ps : List AssetPair} :
    v ∈ (m.split (.pairs ps)).1 ↔ ∃ p ∈ ps, m.get? p = some v := by
  simp [split_pairs, List.mem_eraseDups]

theorem mem_split_snd {ps : List AssetPair} :
    p ∈ (m.split (.pairs ps)).2 ↔ p ∈ ps ∧ m.get? p = none := by
  simp [split_pairs, List.mem_eraseDups]

end PairMap

open Payload (Ticker)

/-- What the answer to the request for a pair tells: a failure, or the ticker if there is one that
can be used. -/
abbrev Reading := AssetPair × Except MarketError (Option Ticker)

namespace Reading

def IsOf (p : AssetPair) (r : Reading) : Prop := ∃ t, r = (p, .ok (some t))

def IsFailure (r : Reading) : Prop := ∃ e, r.2 = .error e

end Reading

namespace Adapter

variable {σ : Type}

/-- The answers to requests that are sent one after another, and the state that they leave. -/
def Fetch.each (fetch : Fetch σ) (method : String) :
    List String → σ → List (Except MarketError Json) × σ
  | [], state => ([], state)
  | url :: urls, state =>
    let (answer, state) := fetch method url state
    let (answers, state) := each fetch method urls state
    (answer :: answers, state)

def reading (a : Adapter) (endpoint : TickersEndpoint)
    (x : AssetPair × Except MarketError Json) : Reading :=
  (x.1, x.2.map fun payload => (Payload.select payload (a.pointer endpoint.pointer x.1)).bind
    (Payload.ticker · endpoint.fields))

/-- How a request for the tickers of pairs comes out, for what the single answers tell. -/
structure Gathered (a : Adapter) (ps : List AssetPair) (readings : List Reading)
    (outcome : Except MarketError Quotes) : Prop where
  /-- Any usable ticker makes an answer. A pair that has one is quoted by its last one, and every
  other pair is missed. -/
  priced : (∃ p, ∃ r ∈ readings, r.IsOf p) → ∃ answer, outcome = .ok answer ∧
    (answer.quotes.map (·.pair) ++ answer.missed).Nodup ∧
    (∀ q, q ∈ answer.quotes ↔ ∃ t, Last (Reading.IsOf q.pair) readings (q.pair, .ok (some t)) ∧
      q = t.quote a.network q.pair) ∧
    ∀ p, p ∈ answer.missed ↔ p ∈ ps ∧ ∀ r ∈ readings, ¬ r.IsOf p
  failed : (∀ p, ∀ r ∈ readings, ¬ r.IsOf p) → (∃ r ∈ readings, r.IsFailure) →
    ∃ p e, Last Reading.IsFailure readings (p, .error e) ∧ outcome = .error e
  silent : (∀ p, ∀ r ∈ readings, ¬ r.IsOf p) → (∀ r ∈ readings, ¬ r.IsFailure) →
    outcome = .error (.providerResponse a.id "get_pricing" "No tickers returned")

namespace Harvest

def take (h : Harvest) (r : Reading) : Harvest :=
  match r.2 with
  | .error e => { h with failure := some e }
  | .ok (some t) => { h with tickers := h.tickers.insert r.1 t }
  | .ok none => h

def of (readings : List Reading) : Harvest := readings.foldl take {}

theorem of_concat (readings : List Reading) (r : Reading) :
    of (readings ++ [r]) = (of readings).take r := List.foldl_concat ..

theorem get?_take {h : Harvest} {r : Reading} {p : AssetPair} {t : Ticker} :
    (h.take r).tickers.get? p = some t ↔
      r.IsOf p ∧ r = (p, .ok (some t)) ∨ ¬ r.IsOf p ∧ h.tickers.get? p = some t := by
  obtain ⟨q, told⟩ := r
  match told with
  | .error e => simp [take, Reading.IsOf]
  | .ok none => simp [take, Reading.IsOf]
  | .ok (some u) =>
    rw [take, PairMap.get?_insert]
    by_cases same : p = q
    · simp [Reading.IsOf, same]
    · simp [Reading.IsOf, same, Ne.symm same]

theorem get?_of {readings : List Reading} {p : AssetPair} {t : Ticker} :
    (of readings).tickers.get? p = some t ↔
      Last (Reading.IsOf p) readings (p, .ok (some t)) := by
  induction readings using List.reverseRecOn with
  | nil => exact iff_of_false nofun not_last_nil
  | append_singleton readings r ih =>
    rw [of_concat, get?_take, last_concat_iff, ih]
    exact or_congr_left (and_congr_right fun _ => eq_comm)

theorem failure_take {h : Harvest} {r : Reading} {e : MarketError} :
    (h.take r).failure = some e ↔
      r.2 = .error e ∨ ¬ r.IsFailure ∧ h.failure = some e := by
  obtain ⟨q, told⟩ := r
  match told with
  | .error e' => simp [take, Reading.IsFailure]
  | .ok none => simp [take, Reading.IsFailure]
  | .ok (some t) => simp [take, Reading.IsFailure]

theorem failure_of {readings : List Reading} {e : MarketError} :
    (of readings).failure = some e ↔ ∃ p, Last Reading.IsFailure readings (p, .error e) := by
  induction readings using List.reverseRecOn with
  | nil => exact iff_of_false nofun fun ⟨_, last⟩ => not_last_nil last
  | append_singleton readings r ih =>
    simp only [of_concat, failure_take, ih, last_concat_iff, exists_or, exists_and_left]
    refine or_congr_left ⟨fun fails => ⟨⟨e, fails⟩, r.1, ?_⟩, fun ⟨_, p, same⟩ => same ▸ rfl⟩
    rw [← fails]

theorem get?_of_eq_none_iff {readings : List Reading} {p : AssetPair} :
    (of readings).tickers.get? p = none ↔ ∀ r ∈ readings, ¬ r.IsOf p := by
  have some_iff : (∃ t, (of readings).tickers.get? p = some t) ↔ ∃ r ∈ readings, r.IsOf p := by
    simp only [get?_of, ← exists_last_iff]
    exact ⟨fun ⟨t, last⟩ => ⟨_, last⟩, fun ⟨r, last⟩ => by
      obtain ⟨t, rfl⟩ := last.1
      exact ⟨t, last⟩⟩
  rw [← not_iff_not, ← ne_eq, Option.ne_none_iff_exists', some_iff]
  simp

theorem isEmpty_of {readings : List Reading} :
    (of readings).tickers.isEmpty = true ↔ ∀ p, ∀ r ∈ readings, ¬ r.IsOf p :=
  PairMap.isEmpty_iff_get?.trans (forall_congr' fun _ => get?_of_eq_none_iff)

theorem failure_eq_none_iff {readings : List Reading} :
    (of readings).failure = none ↔ ∀ r ∈ readings, ¬ r.IsFailure := by
  have some_iff : (∃ e, (of readings).failure = some e) ↔ ∃ r ∈ readings, r.IsFailure := by
    simp only [failure_of, ← exists_last_iff]
    exact ⟨fun ⟨e, p, last⟩ => ⟨_, last⟩, fun ⟨(p, told), last⟩ => by
      obtain ⟨e, rfl⟩ := last.1
      exact ⟨e, p, last⟩⟩
  rw [← not_iff_not, ← ne_eq, Option.ne_none_iff_exists', some_iff]
  simp

end Harvest

theorem harvest_eq (a : Adapter) (fetch : Fetch σ) (endpoint : TickersEndpoint) (method : String)
    (ps : List AssetPair) (h : Harvest) (state : σ) :
    let sent := fetch.each method (ps.map fun p => a.url endpoint.path (some p) none) state
    a.harvest fetch endpoint method ps h state =
      (((ps.zip sent.1).map (a.reading endpoint)).foldl Harvest.take h, sent.2) := by
  induction ps generalizing h state with
  | nil => rfl
  | cons p ps ih =>
    simp only [harvest, List.map_cons, Fetch.each, ih, List.zip_cons_cons, List.foldl_cons]
    congr 2
    cases (fetch method (a.url endpoint.path (some p) none) state).1 with
    | error e => rfl
    | ok payload =>
      simp only [reading, Except.map, Harvest.take]
      cases (Payload.select payload (a.pointer endpoint.pointer p)).bind
        (Payload.ticker · endpoint.fields) <;> rfl

theorem Fetch.length_each (fetch : Fetch σ) (method : String) (urls : List String) (state : σ) :
    (fetch.each method urls state).1.length = urls.length := by
  induction urls generalizing state with
  | nil => rfl
  | cons url urls ih => simp only [each, List.length_cons, ih]

def quotesOf (a : Adapter) (tickers : PairMap Ticker) : PairMap Quote :=
  tickers.filterMap fun pair t => some (t.quote a.network pair)

def Harvest.outcome (h : Harvest) (a : Adapter) (ps : List AssetPair) : Except MarketError Quotes :=
  if h.tickers.isEmpty then
    .error (h.failure.getD (.providerResponse a.id "get_pricing" "No tickers returned"))
  else (a.quotesOf h.tickers).quotes a.id (.pairs ps)

theorem fetchQuotes_eq {a : Adapter} {endpoint : TickersEndpoint}
    (there : a.description.tickers = some endpoint) (single : endpoint.isSinglePair = true)
    (fetch : Fetch σ) (ps : List AssetPair) (state : σ) :
    let sent := fetch.each "get_pricing" (ps.map fun p => a.url endpoint.path (some p) none) state
    a.fetchQuotes fetch (.pairs ps) state =
      ((Harvest.of ((ps.zip sent.1).map (a.reading endpoint))).outcome a ps, sent.2) := by
  intro sent
  have harvested : a.harvest fetch endpoint "get_pricing" ps {} state =
      (Harvest.of ((ps.zip sent.1).map (a.reading endpoint)), sent.2) := a.harvest_eq ..
  simp only [fetchQuotes, there, fetchTickers, single, if_true, harvested, Harvest.outcome]
  generalize Harvest.of ((ps.zip sent.1).map (a.reading endpoint)) = h
  have quotes : (h.tickers.filterMap fun pair t => some (t.quote a.network pair)) =
      a.quotesOf h.tickers := rfl
  cases empty : h.tickers.isEmpty with
  | true =>
    have none : (a.quotesOf h.tickers).isEmpty = true :=
      (PairMap.isEmpty_filterMap _ _).trans empty
    cases h.failure <;> simp [Except.bind, quotes, PairMap.quotes, none]
  | false => cases h.failure <;> simp [Except.bind, quotes]

theorem gathered_outcome (a : Adapter) {ps : List AssetPair} {readings : List Reading}
    (asked : ∀ r ∈ readings, r.1 ∈ ps) :
    Gathered a ps readings ((Harvest.of readings).outcome a ps) where
  priced := by
    rintro ⟨p, r, member, usable⟩
    have some : ¬ (Harvest.of readings).tickers.isEmpty = true := fun none =>
      Harvest.isEmpty_of.mp none p r member usable
    have filled : (a.quotesOf (Harvest.of readings).tickers).entries ≠ [] := by
      rwa [← PairMap.isEmpty_filterMap, ← quotesOf, PairMap.isEmpty_iff] at some
    have labelled : (a.quotesOf (Harvest.of readings).tickers).Labelled := by
      refine PairMap.labelled_filterMap fun p t q made => ?_
      cases made
      rfl
    refine ⟨_, (if_neg some).trans (PairMap.quotes_of_filled filled), ?_, fun q => ?_, fun p => ?_⟩
    · cases PairMap.divided_named labelled ps with
      | named once _ _ _ _ _ => exact once
    · simp only [PairMap.mem_split_fst, quotesOf, PairMap.get?_filterMap, Option.map_eq_some_iff,
        Harvest.get?_of]
      constructor
      · rintro ⟨p, _, t, last, rfl⟩
        exact ⟨t, last, rfl⟩
      · rintro ⟨t, last, same⟩
        exact ⟨q.pair, asked _ last.mem, t, last, same.symm⟩
    · simp only [PairMap.mem_split_snd, quotesOf, PairMap.get?_filterMap, Option.map_eq_none_iff,
        Harvest.get?_of_eq_none_iff]
  failed := by
    rintro none ⟨r, member, fails⟩
    have some : (Harvest.of readings).failure ≠ Option.none := fun sound =>
      Harvest.failure_eq_none_iff.mp sound r member fails
    obtain ⟨e, failure⟩ := Option.ne_none_iff_exists'.mp some
    obtain ⟨p, last⟩ := Harvest.failure_of.mp failure
    refine ⟨p, e, last, ?_⟩
    rw [Harvest.outcome, if_pos (Harvest.isEmpty_of.mpr none), failure, Option.getD_some]
  silent := by
    intro none sound
    rw [Harvest.outcome, if_pos (Harvest.isEmpty_of.mpr none),
      Harvest.failure_eq_none_iff.mpr sound, Option.getD_none]

/-- Tickers that are fetched one by one take one request for each pair that is named, in order, and
are gathered from the answers. -/
theorem single_tickers_are_gathered {a : Adapter} {endpoint : TickersEndpoint}
    (there : a.description.tickers = some endpoint) (single : endpoint.isSinglePair = true)
    (fetch : Fetch σ) (ps : List AssetPair) (state : σ) :
    ∃ answers, answers.length = ps.length ∧
      fetch.each "get_pricing" (ps.map fun p => a.url endpoint.path (some p) none) state =
        (answers, (a.fetchQuotes fetch (.pairs ps) state).2) ∧
      Gathered a ps ((ps.zip answers).map (a.reading endpoint))
        (a.fetchQuotes fetch (.pairs ps) state).1 := by
  rw [fetchQuotes_eq there single]
  refine ⟨_, ?_, rfl, a.gathered_outcome fun r member => ?_⟩
  · rw [Fetch.length_each, List.length_map]
  · obtain ⟨x, zipped, rfl⟩ := List.mem_map.mp member
    exact (List.of_mem_zip zipped).1

def singleAdapter : Adapter where
  description :=
    { id := "single", network := "Single", baseUrl := "http://single", pairSeparator := some '-'
      tickers := some { path := "/" ++ pairHole, fields := { last := "last" } } }
  codes := { separator := some '-' }
  server := []
  timeout := 0
  index := 0

def answerInTurn : Fetch (List (Except MarketError Json) × List String) :=
  fun _ url (answers, record) =>
    (answers.headD (.error .allProvidersFailed), answers.tail, url :: record)

def turns : List (Except MarketError Json) :=
  [.ok (.obj [("last", .str "1")]), .error (.rateLimited "single"), .ok (.obj [("last", .str "2")]),
    .ok .null]

def namedTwice : List AssetPair :=
  [.of "BTC" "USD", .of "ETH" "USD", .of "BTC" "USD", .of "LTC" "USD"]

/-- The second ticker for a pair counts, and the pairs without one are missed. -/
theorem tickers_in_turn_are_gathered :
    let fetched := singleAdapter.fetchQuotes answerInTurn (.pairs namedTwice) (turns, [])
    ∃ endpoint, singleAdapter.description.tickers = some endpoint ∧
      endpoint.isSinglePair = true ∧
      (∃ answers, answers.length = namedTwice.length ∧
        answerInTurn.each "get_pricing"
          (namedTwice.map fun p => singleAdapter.url endpoint.path (some p) none) (turns, []) =
            (answers, fetched.2) ∧
        Gathered singleAdapter namedTwice
          ((namedTwice.zip answers).map (singleAdapter.reading endpoint)) fetched.1) ∧
      fetched.2.2 = ["http://single/LTC-USD", "http://single/BTC-USD", "http://single/ETH-USD",
        "http://single/BTC-USD"] ∧
      fetched.1.toOption.map (fun a => (a.quotes.map fun q => (q.pair, q.price.render), a.missed)) =
        some ([(.of "BTC" "USD", "2")], [.of "ETH" "USD", .of "LTC" "USD"]) := by
  intro fetched
  have there : singleAdapter.description.tickers = some _ := rfl
  have single : TickersEndpoint.isSinglePair
    { path := "/" ++ pairHole, fields := { last := "last" } } = true := by decide +kernel
  exact ⟨_, there, single,
    single_tickers_are_gathered there single answerInTurn namedTwice (turns, []),
    by decide +kernel, by decide +kernel⟩

end Adapter

end PriceDesk
