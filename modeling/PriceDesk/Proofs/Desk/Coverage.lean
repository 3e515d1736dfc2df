import PriceDesk.Proofs.Desk.FrontDoors
import PriceDesk.Proofs.Market.Filling
import PriceDesk.Proofs.Provider.Ranking

namespace PriceDesk

variable {ω : Type}

theorem find?_swap {α : Type} (f g : α → Bool) (as : List α) :
    (as.filter f).find? g = (as.filter g).find? f := by
  simp only [List.find?_filter, and_comm]

namespace Desk

variable {s : Setup ω} {outcome : Provider ω → Except MarketError Listing} {d d' d'' : Desk ω}
  {ps : List (Provider ω)} {p : Provider ω} {l : Listing} {pair : AssetPair} {leg : Leg}

/-- A desk where nobody waits, and which hears of each provider's listing what it comes to, whether
it is remembered or asked for. -/
structure Hears (s : Setup ω) (outcome : Provider ω → Except MarketError Listing) (d : Desk ω) :
    Prop where
  alone : d.callers = []
  free : ∀ p ∈ s.registry.providers, (d.floor.listings.slot p.id).queue = []
  remembered : ∀ p ∈ s.registry.providers, ∀ l, Survey.known d.floor p = some l → outcome p = .ok l
  asked : ∀ p ∈ s.registry.providers, ∀ call, p.listing = some call → ∀ now w,
    ((call.invoke p.id "get_asset_pairs" s.listingTimeout now w).1.conclude now).2 = outcome p

structure Lists (s : Setup ω) (outcome : Provider ω → Except MarketError Listing) (p : Provider ω)
    (l : Listing) : Prop where
  registered : p ∈ s.registry.providers
  direct : p.direct = true
  hasListing : p.listing.isSome = true
  loads : outcome p = .ok l

def IsPriceable (s : Setup ω) (p : Provider ω) : Prop :=
  s.options.requirePricing = true →
    ∃ q ∈ s.registry.providers, q.pricing.isSome = true ∧ (q.network == p.network) = true

/-- How the pairs that are listed, the providers that list a pair, and what is found for a pair
agree. -/
structure Agree (s : Setup ω) (outcome : Provider ω → Except MarketError Listing) (all : Listing)
    (listers : AssetPair → List (Provider ω)) (found : AssetPair → Option Match) : Prop where
  once : all.pairs.Nodup
  listed : ∀ pair, pair ∈ all.pairs ↔ ∃ p l, Lists s outcome p l ∧ pair ∈ l.pairs
  /-- Pairs stand where they occur first when the listings are read one after another, in the order
  of the providers. -/
  inOrder : ∃ order : List (Provider ω × Listing), order.Pairwise (·.1.Precedes ·.1) ∧
    (∀ p l, (p, l) ∈ order ↔ Lists s outcome p l) ∧
    all.pairs.Pairwise fun pair other =>
      (order.flatMap (·.2.pairs)).idxOf pair < (order.flatMap (·.2.pairs)).idxOf other
  covered : ∀ pair, all.contains pair = true ↔ listers pair ≠ []
  lister : ∀ pair p, p ∈ listers pair ↔ ∃ l, Lists s outcome p l ∧ pair ∈ l.pairs
  ranked : ∀ pair, (listers pair).Pairwise Provider.Precedes
  matched : ∀ pair, pair.isDegenerate = false →
    ((∃ leg, found pair = some (.plain leg) ∧ leg.isReversed = false) ↔
      ∃ p ∈ listers pair, IsPriceable s p)
  first : ∀ pair leg, found pair = some (.plain leg) → leg.isReversed = false →
    ∃ before p after, listers pair = before ++ p :: after ∧ IsPriceable s p ∧
      (∀ q ∈ before, ¬ IsPriceable s q) ∧ leg = ⟨p.id, p.network, pair, false⟩
  sets : ∀ given set, PairSet.Filled given set → set.Holds given

theorem Hears.listingTurn (hears : Hears s outcome d) (registered : p ∈ s.registry.providers)
    (lists : p.listing.isSome = true) (w : ω) :
    ((Survey.listingTurn s.listingTimeout (Survey.known d.floor p) p d.floor.clock.now w).1.conclude
      d.floor.clock.now).2 = outcome p := by
  obtain ⟨call, has⟩ := Option.isSome_iff_exists.mp lists
  simp only [Survey.listingTurn, has]
  cases known : Survey.known d.floor p with
  | none => exact hears.asked p registered call has _ w
  | some l =>
    rw [hears.remembered p registered l known]
    exact congrArg Prod.snd (Pending.conclude_at_once _)

theorem Hears.survey_eq (hears : Hears s outcome d) (registered : ps.Sublist s.registry.providers)
    (lists : ∀ p ∈ ps, p.listing.isSome = true) : (survey s d ps).1 = ps.map outcome :=
  survey_eq_map hears.alone (fun p member => hears.free p (registered.subset member))
    registered fun p member w => hears.listingTurn (registered.subset member) (lists p member) w

theorem Used.hears {answers : Answers ω} (fixed : answers.Lists s) (used : Used s d) :
    Hears s answers.listing d where
  alone := used.rests.alone
  free p _ := used.free fixed p.id
  remembered p member l known := by
    obtain ⟨x, entry, _, rfl⟩ := Memo.fresh?_eq_some_iff.mp known
    exact (used.inOrder fixed).informed.entry p member x entry
  asked p member call has now w := by
    refine fixed p member call has now w _ _ (Pending.poll_conclude ?_ now)
    exact Survey.wakes_invoke call p.id "get_asset_pairs" now w

theorem IsBlank.hears (blank : d.IsBlank)
    (asked : ∀ p ∈ s.registry.providers, ∀ call, p.listing = some call → ∀ now w,
      ((call.invoke p.id "get_asset_pairs" s.listingTimeout now w).1.conclude now).2 =
        outcome p) : Hears s outcome d where
  alone := blank.alone
  free p _ := by rw [blank.unasked]
  remembered p _ l known := by
    rw [Survey.known, Memo.fresh?, blank.unasked] at known
    cases known
  asked := asked

def listings (s : Setup ω) (outcome : Provider ω → Except MarketError Listing) :
    List (Provider ω × Listing) :=
  Discovery.heard (s.registry.direct .assetPairs) ((s.registry.direct .assetPairs).map outcome)

theorem mem_direct_assetPairs : p ∈ s.registry.direct .assetPairs ↔
    p ∈ s.registry.providers ∧ p.listing.isSome = true ∧ p.direct = true := by
  rw [Registry.direct, List.mem_filter, Discovery.mem_having, and_assoc]
  rfl

theorem mem_listings : (p, l) ∈ listings s outcome ↔ Lists s outcome p l := by
  rw [listings, Discovery.mem_heard_map, mem_direct_assetPairs]
  constructor
  · rintro ⟨⟨registered, hasListing, direct⟩, loads⟩
    exact ⟨registered, direct, hasListing, loads⟩
  · rintro ⟨registered, direct, hasListing, loads⟩
    exact ⟨⟨registered, hasListing, direct⟩, loads⟩

theorem providers_precede : s.registry.providers.Pairwise Provider.Precedes :=
  (s.registry.ordered.and s.registry.distinct).imp fun both => both.1.precedes both.2

theorem listings_precede : (listings s outcome).Pairwise (·.1.Precedes ·.1) :=
  List.pairwise_map.mp
    (providers_precede.sublist (Discovery.heard_sublist.trans direct_sublist))

theorem mem_flatMap_listings : pair ∈ (listings s outcome).flatMap (·.2.pairs) ↔
    ∃ p l, Lists s outcome p l ∧ pair ∈ l.pairs := by
  rw [List.mem_flatMap]
  constructor
  · rintro ⟨⟨p, l⟩, heard, there⟩
    exact ⟨p, l, mem_listings.mp heard, there⟩
  · rintro ⟨p, l, lists, there⟩
    exact ⟨(p, l), mem_listings.mpr lists, there⟩

theorem Hears.survey_direct (hears : Hears s outcome d) :
    (survey s d (s.registry.direct .assetPairs)).1 =
      (s.registry.direct .assetPairs).map outcome :=
  hears.survey_eq direct_sublist fun _ member => (mem_direct_assetPairs.mp member).2.1

theorem Hears.allPairs_filled (hears : Hears s outcome d) :
    PairSet.Filled ((listings s outcome).flatMap (·.2.pairs)) (allPairs s d).1.toPairSet := by
  have heard : (listings s outcome).map (·.2) =
      ((s.registry.direct .assetPairs).map outcome).filterMap Except.toOption := by
    rw [listings, Discovery.heard, ← List.map_prod_left_eq_zip, List.filterMap_map,
      List.map_filterMap, List.filterMap_map]
    refine congrArg (List.filterMap · _) (funext fun p => ?_)
    simp only [Function.comp]
    cases outcome p <;> rfl
  have nothing : PairSet.Filled [] Listing.empty.toPairSet := .empty
  have together := nothing.foldl_extend ((listings s outcome).map (·.2))
  rw [List.nil_append, List.flatMap_map] at together
  have answered : (allPairs s d).1 =
      ((survey s d (s.registry.direct .assetPairs)).1.filterMap Except.toOption).foldl
        (fun all l => all.extend l.pairs) .empty := rfl
  rw [answered, hears.survey_direct, ← heard]
  exact together

theorem Hears.providersForPair_eq (hears : Hears s outcome d) (pair : AssetPair) :
    (providersForPair s d pair).1 =
      ((listings s outcome).filter (·.2.contains pair)).map (·.1) := by
  rw [Desk.providersForPair_eq, hears.survey_direct]
  exact List.filterMap_filter.symm.trans (congrFun List.filterMap_eq_map _)

theorem heard_filter {f : Provider ω → Bool} (ps : List (Provider ω)) :
    Discovery.heard (ps.filter f) ((ps.filter f).map outcome) =
      (Discovery.heard ps (ps.map outcome)).filter (f ·.1) := by
  simp only [Discovery.heard, ← List.map_prod_left_eq_zip, List.filterMap_map,
    List.filterMap_filter, List.filter_filterMap]
  refine congrArg (List.filterMap · _) (funext fun p => ?_)
  simp only [Function.comp]
  cases outcome p <;> simp [Except.toOption, Option.filter]

theorem search_direct_iff {options : DiscoveryOptions} {cs : List Candidate} :
    Discovery.search options pair cs = some (.plain leg) ∧ leg.isReversed = false ↔
      Discovery.findDirect pair cs = some leg := by
  constructor
  · rintro ⟨gives, straight⟩
    cases Discovery.searched gives with
    | direct found => exact found
    | reversed _ found =>
      obtain ⟨c, _, rfl⟩ := Option.map_eq_some_iff.mp found
      cases straight
  · intro found
    obtain ⟨c, _, same⟩ := Option.map_eq_some_iff.mp found
    refine ⟨?_, same ▸ rfl⟩
    rw [Discovery.search, found]
    rfl

theorem Hears.discover_iff (hears : Hears s outcome d) (proper : pair.isDegenerate = false) :
    (discover s d pair none).1.1 = some (.plain leg) ∧ leg.isReversed = false ↔
      ∃ p, (((listings s outcome).filter (·.2.contains pair)).map (·.1)).find?
        (Discovery.isPriced s.options s.registry) = some p ∧
        leg = ⟨p.id, p.network, pair, false⟩ := by
  have sources : Discovery.sources s.options s.registry pair none =
      (s.registry.direct .assetPairs).filter (Discovery.isPriced s.options s.registry) := by
    simp only [Discovery.sources, proper, Bool.false_eq_true, if_false, Discovery.considered]
  have heard : (survey s d (Discovery.sources s.options s.registry pair none)).1 =
      (Discovery.sources s.options s.registry pair none).map outcome :=
    hears.survey_eq Discovery.sources_sublist fun _ member =>
      Discovery.listing_of_mem_sources _ _ _ _ member
  have candidates : Discovery.heard (Discovery.sources s.options s.registry pair none)
      (survey s d (Discovery.sources s.options s.registry pair none)).1 =
        (listings s outcome).filter (Discovery.isPriced s.options s.registry ·.1) := by
    rw [heard, sources, heard_filter]
    rfl
  have both : ((listings s outcome).filter (Discovery.isPriced s.options s.registry ·.1)).find?
      ((·.listing.contains pair) ∘ Discovery.candidate) =
        ((listings s outcome).filter (·.2.contains pair)).find?
          (Discovery.isPriced s.options s.registry ∘ (·.1)) := find?_swap _ _ _
  rw [discover_eq s d proper, search_direct_iff, candidates, Discovery.findDirect, List.find?_map,
    List.find?_map, both]
  cases ((listings s outcome).filter (·.2.contains pair)).find?
      (Discovery.isPriced s.options s.registry ∘ (·.1)) with
  | none => simp
  | some x =>
    constructor
    · rintro ⟨⟩
      exact ⟨x.1, rfl, rfl⟩
    · rintro ⟨_, ⟨⟩, rfl⟩
      rfl

theorem Hears.mem_providersForPair (hears : Hears s outcome d) :
    p ∈ (providersForPair s d pair).1 ↔ ∃ l, Lists s outcome p l ∧ pair ∈ l.pairs := by
  rw [hears.providersForPair_eq, List.mem_map]
  constructor
  · rintro ⟨⟨q, l⟩, member, rfl⟩
    obtain ⟨heard, there⟩ := List.mem_filter.mp member
    exact ⟨l, mem_listings.mp heard, Listing.contains_iff.mp there⟩
  · rintro ⟨l, lists, there⟩
    exact ⟨(p, l), List.mem_filter.mpr ⟨mem_listings.mpr lists, Listing.contains_iff.mpr there⟩,
      rfl⟩

theorem Hears.providersForPair_precede (hears : Hears s outcome d) (pair : AssetPair) :
    (providersForPair s d pair).1.Pairwise Provider.Precedes := by
  rw [hears.providersForPair_eq, List.pairwise_map]
  exact listings_precede.filter _

theorem Hears.discover_matched (hears : Hears s outcome d) (hears' : Hears s outcome d')
    (proper : pair.isDegenerate = false) :
    (∃ leg, (discover s d' pair none).1.1 = some (.plain leg) ∧ leg.isReversed = false) ↔
      ∃ p ∈ (providersForPair s d pair).1, IsPriceable s p := by
  simp only [hears'.discover_iff proper, ← hears.providersForPair_eq, IsPriceable,
    ← Discovery.isPriced_iff]
  constructor
  · rintro ⟨_, p, found, _⟩
    exact ⟨p, List.mem_of_find?_eq_some found, List.find?_some found⟩
  · rintro ⟨p, member, priced⟩
    obtain ⟨q, found⟩ := Option.isSome_iff_exists.mp (List.find?_isSome.mpr ⟨p, member, priced⟩)
    exact ⟨_, q, found, rfl⟩

theorem Hears.discover_first (hears : Hears s outcome d) (hears' : Hears s outcome d')
    (found : (discover s d' pair none).1.1 = some (.plain leg)) (straight : leg.isReversed = false) :
    ∃ before p after, (providersForPair s d pair).1 = before ++ p :: after ∧ IsPriceable s p ∧
      (∀ q ∈ before, ¬ IsPriceable s q) ∧ leg = ⟨p.id, p.network, pair, false⟩ := by
  cases proper : pair.isDegenerate with
  | true =>
    simp only [discover_fst, Discovery.conclude, proper, if_true] at found
    cases found
  | false =>
    obtain ⟨p, first, same⟩ := (hears'.discover_iff proper).mp ⟨found, straight⟩
    rw [← hears.providersForPair_eq] at first
    obtain ⟨priced, before, after, order, passed⟩ := List.find?_eq_some_iff_append.mp first
    refine ⟨before, p, after, order, Discovery.isPriced_iff.mp priced, fun q member able => ?_, same⟩
    have priced' : Discovery.isPriced s.options s.registry q = true :=
      Discovery.isPriced_iff.mpr able
    simpa [priced'] using passed q member

/-- Desks that hear the same of the listings tell the same of who lists what. -/
theorem coverage_queries_agree (hears : Hears s outcome d) (hears' : Hears s outcome d')
    (hears'' : Hears s outcome d'') :
    Agree s outcome (allPairs s d).1 (fun pair => (providersForPair s d' pair).1)
      (fun pair => (discover s d'' pair none).1.1) where
  once := hears.allPairs_filled.holds.once
  listed pair := (hears.allPairs_filled.holds.exhausts pair).trans mem_flatMap_listings
  inOrder := ⟨listings s outcome, listings_precede, fun _ _ => mem_listings,
    hears.allPairs_filled.holds.inOrder⟩
  covered pair := by
    have holds := hears.allPairs_filled.holds
    rw [holds.contained, holds.exhausts, mem_flatMap_listings, ← List.isEmpty_eq_false_iff,
      List.isEmpty_eq_false_iff_exists_mem]
    exact exists_congr fun p => hears'.mem_providersForPair.symm
  lister _ _ := hears'.mem_providersForPair
  ranked := hears'.providersForPair_precede
  matched _ proper := hears'.discover_matched hears'' proper
  first _ _ found straight := hears'.discover_first hears'' found straight
  sets _ _ filled := filled.holds

def newDesk : Desk Unit := { floor := promptFloor }

/-- On two desks with a lister and a pricer of one pair, a new one and one that has been asked for
its price, both are told to list it, and discovery finds it with the first of them. -/
theorem pricer_coverage_agrees :
    Hears pricerSetup promptAnswers.listing newDesk ∧
      Hears pricerSetup promptAnswers.listing (askedDesk pricerSetup) ∧
      Agree pricerSetup promptAnswers.listing (allPairs pricerSetup (askedDesk pricerSetup)).1
        (fun pair => (providersForPair pricerSetup (askedDesk pricerSetup) pair).1)
        (fun pair => (discover pricerSetup newDesk pair none).1.1) ∧
      (allPairs pricerSetup (askedDesk pricerSetup)).1.pairs = [coinKey.pair] ∧
      (providersForPair pricerSetup (askedDesk pricerSetup) coinKey.pair).1.map (·.id) =
        ["lister", "pricer"] ∧
      (discover pricerSetup newDesk coinKey.pair none).1.1 = some (.plain listedLeg) := by
  have steady : promptAnswers.Steady pricerSetup := listerSetup_steady (isPrompt_quoter _ _ _ _)
  have used : Used pricerSetup (askedDesk pricerSetup) := used_askedDesk rfl rfl
  have blank : newDesk.IsBlank := ⟨rfl, fun _ => rfl⟩
  have hears : Hears pricerSetup promptAnswers.listing newDesk :=
    blank.hears fun p member call has now w => (steady.listing p member call has now w).conclude now
  have hears' : Hears pricerSetup promptAnswers.listing (askedDesk pricerSetup) :=
    used.hears steady.lists
  have found : (discover pricerSetup newDesk coinKey.pair none).1.1 = some (.plain listedLeg) := by
    rfl
  exact ⟨hears, hears', coverage_queries_agree hears' hears' hears, by decide +kernel,
    by decide +kernel, found⟩

end Desk

end PriceDesk
