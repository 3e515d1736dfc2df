import PriceDesk.Proofs.Desk.Hearing

namespace PriceDesk

variable {ω α β γ : Type}

/-- How a question to all providers comes out, for what those who cover the pair give. -/
inductive ComesOut (ps : List (Provider ω)) (covered : List β) (given : β → Except MarketError α)
    (gathered : γ) : Except MarketError γ → Prop
  | nobody (none : ps = []) : ComesOut ps covered given gathered (.error .noProvidersAvailable)
  | failed (some : ps ≠ []) (asked : covered ≠ [])
      (each : ∀ x ∈ covered, ∃ e, given x = .error e) :
      ComesOut ps covered given gathered (.error .allProvidersFailed)
  | gathered (some : ps ≠ []) (one : covered = [] ∨ ∃ x ∈ covered, ∃ a, given x = .ok a) :
      ComesOut ps covered given gathered (.ok gathered)

namespace ComesOut

variable {ps : List (Provider ω)} {covered : List β} {given : β → Except MarketError α}
  {gathered : γ} {r : Except MarketError γ}

theorem of_ite {c : Bool} (some : ps ≠ [])
    (decides : c = true ↔ covered ≠ [] ∧ ∀ x ∈ covered, ∃ e, given x = .error e) :
    ComesOut ps covered given gathered
      (if c then .error .allProvidersFailed else .ok gathered) := by
  cases c with
  | true =>
    obtain ⟨asked, each⟩ := decides.mp rfl
    exact .failed some asked each
  | false =>
    refine .gathered some ?_
    by_contra neither
    obtain ⟨asked, none⟩ := not_or.mp neither
    refine Bool.false_ne_true (decides.mpr ⟨asked, fun x member => ?_⟩)
    cases outcome : given x with
    | error e => exact ⟨e, rfl⟩
    | ok a => exact absurd ⟨x, member, a, outcome⟩ none

theorem of_bind {δ : Type} {asked : δ} {collect : δ → Except MarketError γ}
    (collects : ps ≠ [] → ComesOut ps covered given gathered (collect asked)) :
    ComesOut ps covered given gathered (Except.bind
      (if ps.isEmpty then .error .noProvidersAvailable else .ok asked) collect) := by
  cases ps with
  | nil => exact .nobody rfl
  | cons p ps => exact collects (List.cons_ne_nil p ps)

theorem nobody_iff (comes : ComesOut ps covered given gathered r) :
    r = .error .noProvidersAvailable ↔ ps = [] := by
  cases comes with
  | nobody none => exact iff_of_true rfl none
  | failed some _ _ | gathered some _ => exact iff_of_false nofun some

theorem failed_iff (comes : ComesOut ps covered given gathered r) (covers : covered ≠ [] → ps ≠ []) :
    r = .error .allProvidersFailed ↔
      covered ≠ [] ∧ ∀ x ∈ covered, ∃ e, given x = .error e := by
  cases comes with
  | nobody none => exact iff_of_false nofun fun ⟨asked, _⟩ => covers asked none
  | failed _ asked each => exact iff_of_true rfl ⟨asked, each⟩
  | gathered _ one =>
    refine iff_of_false nofun fun ⟨asked, each⟩ => ?_
    obtain none | ⟨x, member, a, ok⟩ := one
    · exact asked none
    · obtain ⟨e, failed⟩ := each x member
      cases ok.symm.trans failed

theorem eq_ok (comes : ComesOut ps covered given gathered r) (some : ps ≠ [])
    (one : covered = [] ∨ ∃ x ∈ covered, ∃ a, given x = .ok a) : r = .ok gathered := by
  cases comes with
  | nobody none => exact absurd none some
  | gathered _ _ => rfl
  | failed _ asked each =>
    obtain none | ⟨x, member, a, ok⟩ := one
    · exact absurd none asked
    · obtain ⟨e, failed⟩ := each x member
      cases ok.symm.trans failed

end ComesOut

theorem bind_eq_ok_iff {r : Except MarketError α} {f : α → Except MarketError β} {b : β} :
    r.bind f = .ok b ↔ ∃ a, r = .ok a ∧ f a = .ok b := by
  cases r <;> simp [Except.bind]

theorem bind_eq_error_iff {r : Except MarketError α} {f : α → Except MarketError β}
    {e : MarketError} : r.bind f = .error e ↔ r = .error e ∨ ∃ a, r = .ok a ∧ f a = .error e := by
  cases r <;> simp [Except.bind]

theorem Quotes.pair_of_get? {quotes : Quotes} {q : Quote} {pair : AssetPair}
    (got : quotes.get? pair = some q) : q.pair = pair := by
  simpa using List.find?_some got

theorem TradedVolumes.pair_of_get? {volumes : TradedVolumes} {v : TradedVolume}
    {pair : AssetPair} (got : volumes.get? pair = some v) : v.pair = pair := by
  simpa using List.find?_some got

theorem filterMap_toOption_eq_nil_iff {given : β → Except MarketError α} {xs : List β} :
    xs.filterMap (fun x => (given x).toOption) = [] ↔ ∀ x ∈ xs, ∃ e, given x = .error e := by
  rw [List.filterMap_eq_nil_iff]
  refine forall₂_congr fun x _ => ?_
  cases given x <;> simp [Except.toOption]

theorem ComesOut.nothing_iff {ps : List (Provider ω)} {covered : List β}
    {given : β → Except MarketError α} {r : Except MarketError (List α)}
    (comes : ComesOut ps covered given (covered.filterMap fun x => (given x).toOption) r) :
    r = .ok [] ↔ ps ≠ [] ∧ covered = [] := by
  constructor
  · intro nothing
    generalize same : covered.filterMap (fun x => (given x).toOption) = kept at comes
    cases comes with
    | nobody _ | failed _ _ _ => cases nothing
    | gathered some one =>
      cases nothing
      have each := filterMap_toOption_eq_nil_iff.mp same
      obtain none | ⟨x, member, a, ok⟩ := one
      · exact ⟨some, none⟩
      · obtain ⟨e, failed⟩ := each x member
        cases ok.symm.trans failed
  · rintro ⟨some, none⟩
    rw [comes.eq_ok some (.inl none), none]
    rfl

namespace Desk

variable {s : Setup ω} {d : Desk ω} {pair : AssetPair} {ps : List (Provider ω)}

theorem keepSuccesses_comesOut (some : ps ≠ []) (given : β → Except MarketError α) (xs : List β) :
    ComesOut ps xs given (xs.filterMap fun x => (given x).toOption)
      (keepSuccesses (xs.map given)) := by
  have kept : (xs.map given).filterMap Except.toOption =
      xs.filterMap fun x => (given x).toOption := List.filterMap_map ..
  simp only [keepSuccesses, kept]
  refine .of_ite some ?_
  rw [Bool.and_eq_true, List.isEmpty_iff, filterMap_toOption_eq_nil_iff, and_comm]
  simp

theorem Quote.pair_of_reversed {q r : Quote} (turned : q.reversed = .ok r) :
    r.pair = q.pair.reversed := by
  unfold Quote.reversed at turned
  split at turned <;> cases turned
  rfl

/-- A quote for the pair: the listed one as it stands, or reversed where only the reverse is
listed. -/
theorem quoteFrom_eq_ok {isReversed : Bool} {quotes : Quotes} {q : Quote} :
    quoteFrom pair isReversed quotes = .ok q ↔
      ∃ listed, quotes.get? (listedPair pair isReversed) = some listed ∧
        (isReversed = false ∧ q = listed ∨ isReversed = true ∧ listed.reversed = .ok q) := by
  unfold quoteFrom
  cases quotes.get? (listedPair pair isReversed) with
  | none => simp
  | some listed => cases isReversed <;> simp [eq_comm]

theorem quoteFrom_eq_error {isReversed : Bool} {quotes : Quotes} {e : MarketError} :
    quoteFrom pair isReversed quotes = .error e ↔
      quotes.get? (listedPair pair isReversed) = none ∧
          e = .pairNotSupported (listedPair pair isReversed).render ∨
        ∃ listed, quotes.get? (listedPair pair isReversed) = some listed ∧ isReversed = true ∧
          listed.reversed = .error e := by
  unfold quoteFrom
  cases quotes.get? (listedPair pair isReversed) with
  | none => simp [eq_comm]
  | some listed => cases isReversed <;> simp

theorem pair_of_quoteFrom {isReversed : Bool} {quotes : Quotes} {q : Quote}
    (quoted : quoteFrom pair isReversed quotes = .ok q) : q.pair = pair := by
  obtain ⟨listed, got, ⟨rfl, rfl⟩ | ⟨rfl, turned⟩⟩ := quoteFrom_eq_ok.mp quoted
  · exact Quotes.pair_of_get? got
  · have own : listed.pair = pair.reversed := Quotes.pair_of_get? got
    rw [Quote.pair_of_reversed turned, own, AssetPair.reversed_reversed]

/-- How a question for the quotes for a pair comes out, for what those who cover it answer. -/
structure QuotesFor (s : Setup ω) (d : Desk ω) (pair : AssetPair) (covered : List (Coverage ω))
    (answer : Coverage ω → Except MarketError Quotes)
    (given : Coverage ω → Except MarketError Quote) : Prop where
  asked : ∀ x ∈ covered, ∃ pricing w, x.1.pricing = some pricing ∧ answer x =
    ((pricing.call (singleOrAll pricing.features (listedPair pair x.2))) (some s.quoteTimeout)
      (askedAt s d pair .pricing) w).1.within x.1.id "get_pricing" s.quoteTimeout
  quoted : ∀ x ∈ covered, ∀ q, given x = .ok q ↔ ∃ quotes, answer x = .ok quotes ∧
    ∃ listed, quotes.get? (listedPair pair x.2) = some listed ∧
      (x.2 = false ∧ q = listed ∨ x.2 = true ∧ listed.reversed = .ok q)
  expressed : ∀ x ∈ covered, ∀ q, given x = .ok q → q.pair = pair
  failed : ∀ x ∈ covered, ∀ e, given x = .error e ↔ answer x = .error e ∨
    ∃ quotes, answer x = .ok quotes ∧
      (quotes.get? (listedPair pair x.2) = none ∧
          e = .pairNotSupported (listedPair pair x.2).render ∨
        ∃ listed, quotes.get? (listedPair pair x.2) = some listed ∧ x.2 = true ∧
          listed.reversed = .error e)
  nobody : (quotesForPair s d pair).1 = .error .noProvidersAvailable ↔
    s.registry.direct .pricing = []
  uncovered : (quotesForPair s d pair).1 = .ok [] ↔
    s.registry.direct .pricing ≠ [] ∧ covered = []
  allFailed : (quotesForPair s d pair).1 = .error .allProvidersFailed ↔
    covered ≠ [] ∧ ∀ x ∈ covered, ∃ e, given x = .error e
  kept : (∃ x ∈ covered, ∃ q, given x = .ok q) →
    (quotesForPair s d pair).1 = .ok (covered.filterMap fun x => (given x).toOption)

theorem Surveyed.some_of_covered {c : Capability} {listing : Provider ω → Except MarketError Listing}
    {covered : List (Coverage ω)} (surveyed : Surveyed s d pair c listing covered)
    (asked : covered ≠ []) : s.registry.direct c ≠ [] := by
  obtain ⟨x, member⟩ := List.exists_mem_of_ne_nil covered asked
  exact List.ne_nil_of_mem ((surveyed.covers x).mp member).1

theorem Surveyed.has {c : Capability} {listing : Provider ω → Except MarketError Listing}
    {covered : List (Coverage ω)} (surveyed : Surveyed s d pair c listing covered)
    {x : Coverage ω} (member : x ∈ covered) : x.1.has c = true :=
  (Discovery.mem_having.mp (List.mem_filter.mp ((surveyed.covers x).mp member).1).1).2

/-- Whatever the providers list and quote: there is nobody to ask, or nobody covers the pair, or
everybody fails, or every one of those who do not fail gives its quote for the pair. -/
theorem quotes_for_pair_come_out (h : Coherent d) (pair : AssetPair) :
    ∃ listing covered answer given, Surveyed s d pair .pricing listing covered ∧
      QuotesFor s d pair covered answer given := by
  obtain ⟨listing, covered, answer, surveyed, asked, answered⟩ :=
    exists_answers (s := s) h pair .pricing (quoteCall s pair)
  let given (x : Coverage ω) : Except MarketError Quote := (answer x).bind (quoteFrom pair x.2)
  have comes : ComesOut (s.registry.direct .pricing) covered given
      (covered.filterMap fun x => (given x).toOption) (quotesForPair s d pair).1 := by
    rw [quotesForPair_eq, answered]
    refine .of_bind fun some => ?_
    rw [List.map_map]
    exact keepSuccesses_comesOut some given covered
  refine ⟨listing, covered, answer, given, surveyed, ?_⟩
  exact {
    asked := by
      intro x member
      obtain ⟨pricing, prices⟩ := Option.isSome_iff_exists.mp (surveyed.has member)
      obtain ⟨w, came⟩ := asked x member
      refine ⟨pricing, w, prices, came.trans ?_⟩
      obtain ⟨p, isReversed⟩ := x
      simp only at prices
      simp only [quoteCall, prices, Call.conclude_invoke]
    quoted := fun x _ q => bind_eq_ok_iff.trans (exists_congr fun _ =>
      and_congr_right fun _ => quoteFrom_eq_ok)
    expressed := by
      intro x _ q ok
      obtain ⟨quotes, _, quoted⟩ := bind_eq_ok_iff.mp ok
      exact pair_of_quoteFrom quoted
    failed := fun x _ e => bind_eq_error_iff.trans (or_congr_right (exists_congr fun _ =>
      and_congr_right fun _ => quoteFrom_eq_error))
    nobody := comes.nobody_iff
    uncovered := comes.nothing_iff
    allFailed := comes.failed_iff surveyed.some_of_covered
    kept := fun ⟨x, member, q, ok⟩ =>
      comes.eq_ok (surveyed.some_of_covered (List.ne_nil_of_mem member)) (.inr ⟨x, member, q, ok⟩) }

def tradedCoins : SimulatedVenue where
  id := "traded"
  network := ⟨"Coins"⟩
  listing := .ofList [coinPair]
  tickers := ⟨[(coinPair, { price := .one, volume := some .one })]⟩

def tradedSetup : Setup Street := besideSilent (tradedCoins.provider 1) (by decide) (by decide)

/-- Of two direct providers one fails to list, and the other one lists the reverse of the pair. -/
theorem reversed_coins_are_quoted : Coherent pacedDesk ∧
    (∃ listing covered answer given,
      Surveyed tradedSetup pacedDesk coinPair.reversed .pricing listing covered ∧
        QuotesFor tradedSetup pacedDesk coinPair.reversed covered answer given) ∧
    (tradedSetup.registry.direct .pricing).length = 2 ∧
    (quotesForPair tradedSetup pacedDesk coinPair.reversed).1.toOption.map (·.map (·.pair)) =
      some [coinPair.reversed] := by
  have coherent : Coherent pacedDesk := .empty _
  exact ⟨coherent, quotes_for_pair_come_out coherent coinPair.reversed, by rfl, by decide +kernel⟩

end Desk

def TradedVolume.expressed (isReversed : Bool) (v : TradedVolume) : TradedVolume :=
  if isReversed then v.reversed else v

namespace PairVolumes

variable {vs : PairVolumes} {v : TradedVolume}

theorem insert_eq_error_iff {e : MarketError} : (vs.insert v).1 = .error e ↔
    v.pair ≠ vs.pair ∧ v.pair ≠ vs.pair.reversed ∧
      e = .invalidPair s!"cannot add {v.pair} volume to {vs.pair} collection" := by
  unfold insert
  split
  · next fits =>
    refine iff_of_false nofun fun ⟨other, turned, _⟩ => ?_
    rcases Bool.or_eq_true_iff.mp fits with own | reversed
    · exact other (beq_iff_eq.mp own)
    · exact turned (beq_iff_eq.mp reversed)
  · next other =>
    obtain ⟨own, reversed⟩ := Bool.or_eq_false_iff.mp (Bool.eq_false_iff.mpr other)
    simp only [Except.error.injEq]
    constructor
    · rintro rfl
      exact ⟨beq_eq_false_iff_ne.mp own, beq_eq_false_iff_ne.mp reversed, rfl⟩
    · rintro ⟨_, _, rfl⟩
      rfl

theorem insert_of_error {e : MarketError} (refused : (vs.insert v).1 = .error e) :
    (vs.insert v).2 = vs := by
  unfold insert at refused ⊢
  split at refused
  · cases refused
  · next other => rw [if_neg other]

theorem insert_expressed {isReversed : Bool} (own : v.pair = Desk.listedPair vs.pair isReversed)
    (apart : isReversed = true → vs.pair ≠ vs.pair.reversed) :
    vs.insert v = (.ok (), { vs with entries := vs.entries ++ [v.expressed isReversed] }) := by
  unfold insert
  cases isReversed with
  | false =>
    have same : v.pair = vs.pair := own
    simp [AssetPair.equalsOrReversed, same, TradedVolume.expressed]
  | true =>
    have turned : v.pair = vs.pair.reversed := own
    have other : vs.pair.reversed ≠ vs.pair := (apart rfl).symm
    simp [AssetPair.equalsOrReversed, turned, other, TradedVolume.expressed]

end PairVolumes

namespace Desk

variable {s : Setup ω} {d : Desk ω} {pair : AssetPair} {ps : List (Provider ω)}
  {covered : List (Coverage ω)} {given : Coverage ω → Except MarketError TradedVolume}

theorem foldlM_add (fits : ∀ x ∈ covered, ∀ v, given x = .ok v →
      v.pair = listedPair pair x.2 ∧ (x.2 = true → pair ≠ pair.reversed))
    {vs : PairVolumes} (same : vs.pair = pair) :
    (covered.filterMap fun x => (given x).toOption).foldlM PairVolumes.add vs =
      .ok { vs with entries := vs.entries ++
              covered.filterMap fun x => (given x).toOption.map (·.expressed x.2) } := by
  subst same
  -- The collection keeps its pair while it grows, so that what fits at first fits later on.
  induction covered generalizing vs with
  | nil => simp [pure, Except.pure]
  | cons x covered ih =>
    have rest := fun y member => fits y (List.mem_cons_of_mem _ member)
    cases told : given x with
    | error e =>
      simp only [List.filterMap_cons, told, Except.toOption, Option.map_none]
      exact ih rest
    | ok v =>
      obtain ⟨own, apart⟩ := fits x List.mem_cons_self v told
      have added : vs.add v = .ok { vs with entries := vs.entries ++ [v.expressed x.2] } := by
        simp only [PairVolumes.add, PairVolumes.insert_expressed own apart, Except.map]
      simp only [List.filterMap_cons, told, Except.toOption, Option.map_some, List.foldlM_cons,
        added]
      refine (@ih { vs with entries := vs.entries ++ [v.expressed x.2] } rest).trans ?_
      simp only [List.append_assoc, List.singleton_append]
      rfl

theorem collectVolumes_comesOut (some : ps ≠ []) (fits : ∀ x ∈ covered, ∀ v, given x = .ok v →
      v.pair = listedPair pair x.2 ∧ (x.2 = true → pair ≠ pair.reversed)) :
    ComesOut ps covered given
      { pair, entries := covered.filterMap fun x => (given x).toOption.map (·.expressed x.2) }
      (collectVolumes pair (covered.map given)) := by
  have kept : (covered.map given).filterMap Except.toOption =
      covered.filterMap fun x => (given x).toOption := List.filterMap_map ..
  have nothing : covered.filterMap (fun x => (given x).toOption.map (·.expressed x.2)) = [] ↔
      ∀ x ∈ covered, ∃ e, given x = .error e := by
    simp only [← filterMap_toOption_eq_nil_iff, List.filterMap_eq_nil_iff, Option.map_eq_none_iff]
  have added := foldlM_add fits (show ({ pair } : PairVolumes).pair = pair from rfl)
  simp only [List.nil_append] at added
  simp only [collectVolumes, kept, added]
  refine ComesOut.of_ite some ?_
  rw [Bool.and_eq_true, List.isEmpty_iff, nothing, and_comm]
  refine and_congr_left fun each => ?_
  rw [List.any_eq_true]
  constructor
  · rintro ⟨r, member, _⟩ none
    rw [none] at member
    cases member
  · intro asked
    obtain ⟨x, member⟩ := List.exists_mem_of_ne_nil covered asked
    obtain ⟨e, failed⟩ := each x member
    exact ⟨given x, List.mem_map_of_mem member, by rw [failed]⟩

/-- How a question for the volumes for a pair comes out, for what those who cover it answer. -/
structure VolumesFor (s : Setup ω) (d : Desk ω) (pair : AssetPair) (covered : List (Coverage ω))
    (answer : Coverage ω → Except MarketError TradedVolumes)
    (given : Coverage ω → Except MarketError TradedVolume) : Prop where
  asked : ∀ x ∈ covered, ∃ volumes w, x.1.volumes = some volumes ∧ answer x =
    ((volumes.call (.single (listedPair pair x.2))) (some s.quoteTimeout)
      (askedAt s d pair .volume) w).1.within x.1.id "get_volume" s.quoteTimeout
  told : ∀ x ∈ covered, ∀ v, given x = .ok v ↔ ∃ volumes, answer x = .ok volumes ∧
    volumes.get? (listedPair pair x.2) = some v
  failed : ∀ x ∈ covered, ∀ e, given x = .error e ↔ answer x = .error e ∨
    ∃ volumes, answer x = .ok volumes ∧ volumes.get? (listedPair pair x.2) = none ∧
      e = .pairNotSupported (listedPair pair x.2).render
  nobody : (volumesForPair s d pair).1 = .error .noProvidersAvailable ↔
    s.registry.direct .volume = []
  allFailed : (volumesForPair s d pair).1 = .error .allProvidersFailed ↔
    covered ≠ [] ∧ ∀ x ∈ covered, ∃ e, given x = .error e
  collected : s.registry.direct .volume ≠ [] →
    (covered = [] ∨ ∃ x ∈ covered, ∃ v, given x = .ok v) →
      (volumesForPair s d pair).1 = .ok
        { pair
          entries := covered.filterMap fun x => (given x).toOption.map (·.expressed x.2) }
  expressed : ∀ x ∈ covered, ∀ v, given x = .ok v → (v.expressed x.2).pair = pair ∧
    (v.expressed x.2).network = v.network ∧
      if x.2 then (v.expressed x.2).base = v.quote ∧ (v.expressed x.2).quote = v.base
      else v.expressed x.2 = v
  accepted : ∀ x ∈ covered, ∀ v, given x = .ok v → ∀ vs : PairVolumes, vs.pair = pair →
    vs.insert v = (.ok (), { vs with entries := vs.entries ++ [v.expressed x.2] })
  neverRefused : ∀ text, (volumesForPair s d pair).1 ≠ .error (.invalidPair text)

theorem volumeFrom_eq_ok {isReversed : Bool} {volumes : TradedVolumes} {v : TradedVolume} :
    volumeFrom pair isReversed volumes = .ok v ↔
      volumes.get? (listedPair pair isReversed) = some v := by
  unfold volumeFrom
  cases volumes.get? (listedPair pair isReversed) <;> simp

theorem volumeFrom_eq_error {isReversed : Bool} {volumes : TradedVolumes} {e : MarketError} :
    volumeFrom pair isReversed volumes = .error e ↔
      volumes.get? (listedPair pair isReversed) = none ∧
        e = .pairNotSupported (listedPair pair isReversed).render := by
  unfold volumeFrom
  cases volumes.get? (listedPair pair isReversed) <;> simp [eq_comm]

/-- Whatever the providers list and tell: there is nobody to ask, or everybody fails who covers the
pair, or every one of those who do not fail has an entry for the pair. A collection that refuses a
volume stays as it is. -/
theorem volumes_for_pair_come_out (h : Coherent d) (pair : AssetPair) :
    (∃ listing covered answer given, Surveyed s d pair .volume listing covered ∧
      VolumesFor s d pair covered answer given) ∧
    ∀ (vs : PairVolumes) (v : TradedVolume) (e : MarketError), (vs.insert v).1 = .error e →
      (vs.insert v).2 = vs ∧ v.pair ≠ vs.pair ∧ v.pair ≠ vs.pair.reversed ∧
        e = .invalidPair s!"cannot add {v.pair} volume to {vs.pair} collection" := by
  refine ⟨?_, fun vs v e refused => ⟨PairVolumes.insert_of_error refused,
    PairVolumes.insert_eq_error_iff.mp refused⟩⟩
  obtain ⟨listing, covered, answer, surveyed, asked, answered⟩ :=
    exists_answers (s := s) h pair .volume (volumeCall s pair)
  let given (x : Coverage ω) : Except MarketError TradedVolume :=
    (answer x).bind (volumeFrom pair x.2)
  have fits : ∀ x ∈ covered, ∀ v, given x = .ok v →
      v.pair = listedPair pair x.2 ∧ (x.2 = true → pair ≠ pair.reversed) := by
    intro x member v ok
    obtain ⟨volumes, _, told⟩ := bind_eq_ok_iff.mp ok
    refine ⟨TradedVolumes.pair_of_get? (volumeFrom_eq_ok.mp told), fun reversed same => ?_⟩
    -- A pair that is its own reverse is never listed in reverse only.
    obtain ⟨_, l, _, direction⟩ := (surveyed.covers x).mp member
    rw [← same] at direction
    simp [reversed] at direction
  have comes : ComesOut (s.registry.direct .volume) covered given
      { pair, entries := covered.filterMap fun x => (given x).toOption.map (·.expressed x.2) }
      (volumesForPair s d pair).1 := by
    rw [volumesForPair_eq, answered]
    refine .of_bind fun some => ?_
    rw [List.map_map]
    exact collectVolumes_comesOut some fits
  refine ⟨listing, covered, answer, given, surveyed, ?_⟩
  exact {
    asked := by
      intro x member
      obtain ⟨volumes, tells⟩ := Option.isSome_iff_exists.mp (surveyed.has member)
      obtain ⟨w, came⟩ := asked x member
      refine ⟨volumes, w, tells, came.trans ?_⟩
      obtain ⟨p, isReversed⟩ := x
      simp only at tells
      simp only [volumeCall, tells, Call.conclude_invoke]
    told := fun x _ v => bind_eq_ok_iff.trans (exists_congr fun _ =>
      and_congr_right fun _ => volumeFrom_eq_ok)
    failed := fun x _ e => bind_eq_error_iff.trans (or_congr_right (exists_congr fun _ =>
      and_congr_right fun _ => volumeFrom_eq_error))
    nobody := comes.nobody_iff
    allFailed := comes.failed_iff surveyed.some_of_covered
    collected := comes.eq_ok
    expressed := by
      intro x member v ok
      have own := (fits x member v ok).1
      obtain ⟨p, isReversed⟩ := x
      cases isReversed with
      | false => exact ⟨own, rfl, rfl⟩
      | true => exact ⟨congrArg AssetPair.reversed own, rfl, rfl, rfl⟩
    accepted := by
      intro x member v ok vs same
      subst same
      exact PairVolumes.insert_expressed (fits x member v ok).1 (fits x member v ok).2
    neverRefused := by
      intro text refused
      rw [refused] at comes
      cases comes }

/-- What was traded in coins is told in reverse, and what was traded of another pair is refused. -/
theorem reversed_coins_are_told : Coherent pacedDesk ∧
    (∃ listing covered answer given,
      Surveyed tradedSetup pacedDesk coinPair.reversed .volume listing covered ∧
        VolumesFor tradedSetup pacedDesk coinPair.reversed covered answer given) ∧
    (volumesForPair tradedSetup pacedDesk coinPair.reversed).1.toOption.map
      (·.entries.map fun v => (v.pair, v.base.isSome, v.quote.isSome)) =
        some [(coinPair.reversed, false, true)] ∧
    ∃ e, (PairVolumes.insert { pair := coinPair } ⟨⟨"Coins"⟩, .of "ETH" "USD", none, none⟩).1 =
      .error e ∧ (PairVolumes.insert { pair := coinPair }
        ⟨⟨"Coins"⟩, .of "ETH" "USD", none, none⟩).2 = { pair := coinPair } := by
  have coherent : Coherent pacedDesk := .empty _
  obtain ⟨told, refused⟩ := volumes_for_pair_come_out (s := tradedSetup) coherent coinPair.reversed
  have error : (PairVolumes.insert { pair := coinPair }
      ⟨⟨"Coins"⟩, .of "ETH" "USD", none, none⟩).1 = .error _ := rfl
  exact ⟨coherent, told, by decide +kernel, _, error, (refused _ _ _ error).1⟩

end Desk

end PriceDesk
