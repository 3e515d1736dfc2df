import PriceDesk.Pacing.Plan
import PriceDesk.Proofs.Desk.Neighbours
import PriceDesk.Proofs.Desk.Workload

namespace PriceDesk.Desk

open Discovery (heard)

variable {ω α : Type} {s : Setup ω} {d : Desk ω} {p : Provider ω} {Alike : ω → ω → Prop}
  {pair : AssetPair} {network : Option Network} {c : Capability}

structure IsBlank (d : Desk ω) : Prop where
  alone : d.callers = []
  unasked : ∀ id, d.floor.listings.slot id = {}

theorem survey_eq_outcomes (blank : d.IsBlank) {ps : List (Provider ω)}
    (registered : ps.Sublist s.registry.providers) :
    let calls := outcomes s.listingTimeout d.floor.clock.now d.floor.world ps
    (survey s d ps).1 = calls.1 ∧ (survey s d ps).2.floor.world = calls.2 := by
  obtain ⟨listings, world⟩ := survey_eq_together blank.alone (fun p _ => blank.unasked p.id)
    (s.registry.distinct.sublist registered) registered.length_le
  exact ⟨listings.trans (d.floor.together_fst _), world⟩

theorem direct_sublist : (s.registry.direct c).Sublist s.registry.providers :=
  List.filter_sublist.trans Registry.having_sublist

theorem discover_fst (s : Setup ω) (d : Desk ω) (pair : AssetPair) (network : Option Network) :
    (discover s d pair network).1 = Discovery.conclude s.options s.registry pair network
      (survey s d (Discovery.sources s.options s.registry pair network)).1 := rfl

theorem discover_eq (s : Setup ω) (d : Desk ω) (proper : pair.isDegenerate = false) :
    let ps := Discovery.sources s.options s.registry pair network
    (discover s d pair network).1.1 =
      Discovery.search s.options pair ((heard ps (survey s d ps).1).map Discovery.candidate) := by
  rw [discover_fst, Discovery.conclude_fst proper]

def covers? (pair : AssetPair) (x : Provider ω × Listing) : Option (Coverage ω) :=
  if x.2.contains pair then some (x.1, false)
  else if x.2.containsReversed pair then some (x.1, true)
  else none

theorem fst_of_covers? {x : Provider ω × Listing} {y : Coverage ω}
    (covers : covers? pair x = some y) : y.1 = x.1 := by
  unfold covers? at covers
  split at covers
  · cases covers
    rfl
  · split at covers <;> cases covers
    rfl

theorem covering_eq (ps : List (Provider ω)) (listings : List (Except MarketError Listing)) :
    covering pair ps listings = (heard ps listings).filterMap (covers? pair) := by
  rw [covering, heard, List.filterMap_filterMap]
  refine congrArg (List.filterMap · _) (funext fun x => ?_)
  obtain ⟨q, listing⟩ := x
  cases listing <;> rfl

theorem providersForPair_eq (s : Setup ω) (d : Desk ω) (pair : AssetPair) :
    let ps := s.registry.direct .assetPairs
    (providersForPair s d pair).1 = (heard ps (survey s d ps).1).filterMap fun x =>
      if x.2.contains pair then some x.1 else none := by
  intro ps
  rw [heard, List.filterMap_filterMap]
  refine congrArg (List.filterMap · _) (funext fun x => ?_)
  obtain ⟨q, listing⟩ := x
  cases listing <;> rfl

theorem allPairs_eq (blank : d.IsBlank) :
    let ps := s.registry.direct .assetPairs
    (allPairs s d).1 = ((heard ps (survey s d ps).1).map (·.2)).foldl
      (fun all l => all.extend l.pairs) .empty := by
  intro ps
  have listings : (survey s d ps).1 = (outcomes _ _ _ ps).1 :=
    (survey_eq_outcomes blank direct_sublist).1
  have answered : (allPairs s d).1 = ((survey s d ps).1.filterMap Except.toOption).foldl
      (fun all l => all.extend l.pairs) .empty := rfl
  rw [answered, listings, filterMap_outcomes]

def askedAt (s : Setup ω) (d : Desk ω) (pair : AssetPair) (c : Capability) : Instant :=
  (coverage s d pair c).2.floor.clock.now

def answers (s : Setup ω) (d : Desk ω) (pair : AssetPair) (c : Capability)
    (call : Coverage ω → Instant → ω → Pending MarketError α × ω) :
    Except MarketError (List (Coverage ω × Except MarketError α)) :=
  (coverage s d pair c).1.map fun covered =>
    covered.zip ((coverage s d pair c).2.floor.together (covered.map call)).1

theorem quotesForPair_eq (s : Setup ω) (d : Desk ω) (pair : AssetPair) :
    (quotesForPair s d pair).1 = (answers s d pair .pricing (quoteCall s pair)).bind fun asked =>
      keepSuccesses (asked.map fun ((_, isReversed), answer) =>
        answer.bind (quoteFrom pair isReversed)) := by
  unfold quotesForPair answers
  rcases coverage s d pair .pricing with ⟨_ | covered, e⟩ <;> rfl

theorem volumesForPair_eq (s : Setup ω) (d : Desk ω) (pair : AssetPair) :
    (volumesForPair s d pair).1 = (answers s d pair .volume (volumeCall s pair)).bind fun asked =>
      collectVolumes pair (asked.map fun ((_, isReversed), answer) =>
        answer.bind (volumeFrom pair isReversed)) := by
  unfold volumesForPair answers
  rcases coverage s d pair .volume with ⟨_ | covered, e⟩ <;> rfl

theorem together_alike {f g : Floor ω} (alike : Alike f.world g.world)
    (calls : List (Instant → ω → Pending MarketError α × ω))
    (each : ∀ call ∈ calls, EndsAlike Alike f.clock.now g.clock.now call) :
    (f.together calls).1 = (g.together calls).1 := by
  rw [Floor.together_fst, Floor.together_fst]
  generalize f.world = w at alike
  generalize g.world = w' at alike
  induction calls generalizing w w' with
  | nil => rfl
  | cons call calls ih =>
    obtain ⟨same, after⟩ := each call List.mem_cons_self w w' alike
    have rest := ih (fun call among => each call (List.mem_cons_of_mem _ among)) _ _ after
    simp only [Floor.beginAll, List.map_cons, same]
    exact congrArg _ rest

theorem quoteCall_endsAlike (pair : AssetPair) {now later : Instant} {x : Coverage ω}
    (same : ∀ pricing, x.1.pricing = some pricing → ∀ requested,
      (pricing.call requested).Same Alike s.quoteTimeout now later) :
    EndsAlike Alike now later (quoteCall s pair x) := by
  obtain ⟨q, isReversed⟩ := x
  show EndsAlike Alike now later fun now w => quoteCall s pair (q, isReversed) now w
  cases prices : q.pricing with
  | none =>
    simp only [quoteCall, prices]
    exact endsAlike_at_once _
  | some pricing =>
    simp only [quoteCall, prices]
    exact (same pricing prices _).endsAlike _ _

theorem volumeCall_endsAlike (pair : AssetPair) {now later : Instant} {x : Coverage ω}
    (same : ∀ volumes, x.1.volumes = some volumes → ∀ requested,
      (volumes.call requested).Same Alike s.quoteTimeout now later) :
    EndsAlike Alike now later (volumeCall s pair x) := by
  obtain ⟨q, isReversed⟩ := x
  show EndsAlike Alike now later fun now w => volumeCall s pair (q, isReversed) now w
  cases tells : q.volumes with
  | none =>
    simp only [volumeCall, tells]
    exact endsAlike_at_once _
  | some volumes =>
    simp only [volumeCall, tells]
    exact (same volumes tells _).endsAlike _ _

structure HearAlike (Alike : ω → ω → Prop) (id : String) (ps qs : List (Provider ω))
    (one two : List (Except MarketError Listing) × Desk ω) : Prop where
  heard : heard ps one.1 = heard qs two.1
  others : ∀ x ∈ Discovery.heard ps one.1, x.1.id ≠ id
  world : Alike one.2.floor.world two.2.floor.world

section Isolation

variable (member : p ∈ s.registry.providers) (fails : p.FailsToList s.listingTimeout)
  (unnoticed : Unnoticed s p Alike) (blank : d.IsBlank)
  (alike : Alike d.floor.world d.floor.world)

include member fails unnoticed blank alike

theorem survey_lacks {ps qs : List (Provider ω)} (lacks : Lacks p.id ps qs)
    (registered : ps.Sublist s.registry.providers)
    (registered' : qs.Sublist (s.muting p.id).registry.providers) :
    HearAlike Alike p.id ps qs (survey s d ps) (survey (s.muting p.id) d qs) := by
  obtain ⟨listings, world⟩ := survey_eq_outcomes blank registered
  obtain ⟨listings', world'⟩ := survey_eq_outcomes blank registered'
  obtain ⟨same, after, others⟩ := heard_lacks member fails unnoticed lacks
    (fun q among => registered.subset among) d.floor.clock.now alike
  rw [← listings, ← world] at *
  refine ⟨same.trans ?_, others, ?_⟩
  · rw [listings']
    rfl
  · rw [world']
    exact after

theorem survey_direct (c : Capability) :
    HearAlike Alike p.id (s.registry.direct c) ((s.muting p.id).registry.direct c)
      (survey s d (s.registry.direct c))
      (survey (s.muting p.id) d ((s.muting p.id).registry.direct c)) :=
  survey_lacks member fails unnoticed blank alike (s.registry.lacks_direct p.id c)
    direct_sublist direct_sublist

theorem survey_sources (pair : AssetPair) (network : Option Network) :
    HearAlike Alike p.id (Discovery.sources s.options s.registry pair network)
      (Discovery.sources s.options (s.muting p.id).registry pair network)
      (survey s d (Discovery.sources s.options s.registry pair network))
      (survey (s.muting p.id) d
        (Discovery.sources s.options (s.muting p.id).registry pair network)) :=
  survey_lacks member fails unnoticed blank alike
    (s.registry.lacks_sources s.options p.id pair network)
    Discovery.sources_sublist Discovery.sources_sublist

theorem discover_muting :
    (discover s d pair network).1.1 = (discover (s.muting p.id) d pair network).1.1 := by
  cases proper : pair.isDegenerate with
  | true => simp only [discover_fst, Discovery.conclude, proper, if_true]
  | false =>
    have hears := survey_sources member fails unnoticed blank alike pair network
    rw [discover_eq s d proper, discover_eq (s.muting p.id) d proper, hears.heard]
    rfl

theorem coverage_muting (pair : AssetPair) (quoting : c ≠ .assetPairs) :
    (coverage s d pair c).1 = (coverage (s.muting p.id) d pair c).1 ∧
      Alike (coverage s d pair c).2.floor.world
        (coverage (s.muting p.id) d pair c).2.floor.world ∧
      ∀ covered, (coverage s d pair c).1 = .ok covered →
        ∀ x ∈ covered, x.1 ∈ s.registry.providers ∧ x.1.id ≠ p.id := by
  have hears := survey_direct member fails unnoticed blank alike c
  have nobody : ((s.muting p.id).registry.direct c).isEmpty = (s.registry.direct c).isEmpty := by
    rw [Setup.muting, Registry.direct_muting _ _ quoting, List.isEmpty_map]
  unfold coverage
  simp only [nobody]
  split
  · exact ⟨rfl, alike, nofun⟩
  · simp only [covering_eq, hears.heard]
    refine ⟨trivial, hears.world, fun covered given x among => ?_⟩
    cases given
    obtain ⟨y, heard, covers⟩ := List.mem_filterMap.mp among
    rw [fst_of_covers? covers]
    rw [← hears.heard] at heard
    exact ⟨Discovery.mem_of_direct (Discovery.mem_of_mem_heard heard), hears.others y heard⟩

theorem answers_muting (quoting : c ≠ .assetPairs)
    {call : Coverage ω → Instant → ω → Pending MarketError α × ω}
    (each : ∀ x : Coverage ω, x.1 ∈ s.registry.providers → x.1.id ≠ p.id →
      EndsAlike Alike (askedAt s d pair c) (askedAt (s.muting p.id) d pair c) (call x)) :
    answers s d pair c call = answers (s.muting p.id) d pair c call := by
  obtain ⟨agree, after, others⟩ :=
    coverage_muting member fails unnoticed blank alike pair quoting
  unfold answers
  unfold askedAt at each
  generalize coverage s d pair c = one at agree after others each ⊢
  generalize coverage (s.muting p.id) d pair c = two at agree after each ⊢
  obtain ⟨covered, e⟩ := one
  obtain ⟨covered', e'⟩ := two
  cases agree
  cases covered with
  | error refusal => rfl
  | ok covered =>
    have calls := together_alike after (covered.map call) fun ask among => by
      obtain ⟨x, covers, rfl⟩ := List.mem_map.mp among
      obtain ⟨registered, other⟩ := others covered rfl x covers
      exact each x registered other
    simp only [Except.map, calls]

theorem quotesForPair_muting
    (same : ∀ q ∈ s.registry.providers, q.id ≠ p.id → ∀ pricing, q.pricing = some pricing →
      ∀ requested, (pricing.call requested).Same Alike s.quoteTimeout
        (askedAt s d pair .pricing) (askedAt (s.muting p.id) d pair .pricing)) :
    (quotesForPair s d pair).1 = (quotesForPair (s.muting p.id) d pair).1 := by
  have quoting : Capability.pricing ≠ .assetPairs := by decide
  have agree := answers_muting member fails unnoticed blank alike quoting
    fun x registered other => quoteCall_endsAlike pair (same x.1 registered other)
  have calls : quoteCall (s.muting p.id) pair = quoteCall s pair := rfl
  rw [quotesForPair_eq, quotesForPair_eq, agree, calls]

theorem volumesForPair_muting
    (same : ∀ q ∈ s.registry.providers, q.id ≠ p.id → ∀ volumes, q.volumes = some volumes →
      ∀ requested, (volumes.call requested).Same Alike s.quoteTimeout
        (askedAt s d pair .volume) (askedAt (s.muting p.id) d pair .volume)) :
    (volumesForPair s d pair).1 = (volumesForPair (s.muting p.id) d pair).1 := by
  have quoting : Capability.volume ≠ .assetPairs := by decide
  have agree := answers_muting member fails unnoticed blank alike quoting
    fun x registered other => volumeCall_endsAlike pair (same x.1 registered other)
  have calls : volumeCall (s.muting p.id) pair = volumeCall s pair := rfl
  rw [volumesForPair_eq, volumesForPair_eq, agree, calls]

theorem leg_not_muted {m : Match} (found : (discover s d pair network).1.1 = some m) {leg : Leg}
    (part : leg ∈ m.legs) : leg.provider ≠ p.id := by
  have hears := survey_sources member fails unnoticed blank alike pair network
  rw [discover_fst] at found
  cases proper : pair.isDegenerate with
  | true =>
    simp only [Discovery.conclude, proper, if_true] at found
    cases found
  | false =>
    have finds := Discovery.finds_conclude s.options s.registry network
      (survey s d (Discovery.sources s.options s.registry pair network)).1 proper
    rw [found] at finds
    obtain ⟨route, isOpen, _, rfl⟩ := finds
    obtain ⟨q, l, heard, named, _⟩ := isOpen.rests.listed leg part
    rw [named]
    exact hears.others (q, l) heard

end Isolation

theorem askOrder_muting (s : Setup ω) (id : String) (leg : Leg) :
    opening.askOrder (s.muting id) leg = (opening.askOrder s leg).map (Provider.mutedAt id) := by
  have quoting : Capability.pricing ≠ .assetPairs := by decide
  unfold opening.askOrder
  simp only [Setup.muting, Registry.onNetwork_muting _ _ _ quoting, List.filter_map,
    List.map_append, Function.comp_def, Provider.id_mutedAt]

/-- What stays as it is for a pair, whether a provider fails to list or has no listing. -/
structure Isolated (Alike : ω → ω → Prop) (s : Setup ω) (d : Desk ω) (p : Provider ω)
    (pair : AssetPair) (network : Option Network) : Prop where
  discovered : (discover s d pair network).1.1 = (discover (s.muting p.id) d pair network).1.1
  listed : (allPairs s d).1 = (allPairs (s.muting p.id) d).1
  listers : (providersForPair s d pair).1 = (providersForPair (s.muting p.id) d pair).1
  covered : ∀ c, c ≠ .assetPairs →
    (coverage s d pair c).1 = (coverage (s.muting p.id) d pair c).1 ∧
      ∀ covered, (coverage s d pair c).1 = .ok covered → ∀ x ∈ covered, x.1.id ≠ p.id
  quoted : (∀ q ∈ s.registry.providers, q.id ≠ p.id → ∀ pricing, q.pricing = some pricing →
      ∀ requested, (pricing.call requested).Same Alike s.quoteTimeout
        (askedAt s d pair .pricing) (askedAt (s.muting p.id) d pair .pricing)) →
    (quotesForPair s d pair).1 = (quotesForPair (s.muting p.id) d pair).1
  measured : (∀ q ∈ s.registry.providers, q.id ≠ p.id → ∀ volumes, q.volumes = some volumes →
      ∀ requested, (volumes.call requested).Same Alike s.quoteTimeout
        (askedAt s d pair .volume) (askedAt (s.muting p.id) d pair .volume)) →
    (volumesForPair s d pair).1 = (volumesForPair (s.muting p.id) d pair).1
  /-- The legs come from others, and the provider is asked for their prices if it can quote them. -/
  usable : ∀ m, (discover s d pair network).1.1 = some m → ∀ leg ∈ m.legs,
    leg.provider ≠ p.id ∧
      (p.pricing.isSome → (p.network == leg.network) = true → p ∈ opening.askOrder s leg)
  asked : ∀ leg, opening.askOrder (s.muting p.id) leg =
    (opening.askOrder s leg).map (Provider.mutedAt p.id)

/-- A provider that nobody notices, and whose listing fails at every call, changes no answer about a
pair by being asked for its listing, but by the time that it takes to fail. -/
theorem failing_listing_is_isolated (member : p ∈ s.registry.providers)
    (fails : p.FailsToList s.listingTimeout) (unnoticed : Unnoticed s p Alike) (blank : d.IsBlank)
    (alike : Alike d.floor.world d.floor.world) (pair : AssetPair) (network : Option Network) :
    Isolated Alike s d p pair network where
  discovered := discover_muting member fails unnoticed blank alike
  listed := by
    have hears := survey_direct member fails unnoticed blank alike .assetPairs
    rw [allPairs_eq blank, allPairs_eq blank, hears.heard]
  listers := by
    have hears := survey_direct member fails unnoticed blank alike .assetPairs
    rw [providersForPair_eq, providersForPair_eq, hears.heard]
  covered c quoting := by
    obtain ⟨same, _, others⟩ := coverage_muting member fails unnoticed blank alike pair quoting
    exact ⟨same, fun covered given x among => (others covered given x among).2⟩
  quoted := quotesForPair_muting member fails unnoticed blank alike
  measured := volumesForPair_muting member fails unnoticed blank alike
  usable m found leg part := by
    refine ⟨leg_not_muted member fails unnoticed blank alike found part, fun quotes on => ?_⟩
    exact mem_askOrder (List.mem_filter.mpr ⟨Discovery.mem_having.mpr ⟨member, quotes⟩, on⟩)
  asked := askOrder_muting s p.id

def coinPair : AssetPair := .of "BTC" "USD"

def silentVenue : Provider Street where
  id := "silent"
  network := ⟨"Coins"⟩
  title := "Silent"
  priority := 1
  listing := some fun _ _ w => (⟨none, .ok .empty⟩, w.countListing 0)
  pricing := some
    { features := {}
      call := fun _ _ _ w => (.now (.ok { missed := [coinPair] }), w) }

def pacedCall {α : Type} (answer : α) : Call Street α := fun _ now w =>
  let (start, w) := w.pace 1 .anonymous now
  (⟨some (start - now), .ok answer⟩, w)

def coinQuotes : Quotes := { quotes := [{ network := ⟨"Coins"⟩, pair := coinPair, price := .one }] }

def pacedVenue : Provider Street where
  id := "paced"
  network := ⟨"Coins"⟩
  title := "Paced"
  listing := some (pacedCall (.ofList [coinPair]))
  pricing := some { features := {}, call := fun _ => pacedCall coinQuotes }

def nosyVenue : Provider Street where
  id := "nosy"
  network := ⟨"Coins"⟩
  title := "Nosy"
  listing := some fun _ _ w =>
    (.now (if (w.tally 0).listing = 0 then .ok (.ofList [coinPair])
      else .error .noProvidersAvailable), w)
  pricing := some { features := {}, call := fun _ _ _ w => (.now (.ok coinQuotes), w) }

def besideSilent (q : Provider Street) (later : 1 < q.priority) (other : "silent" ≠ q.id) :
    Setup Street where
  registry :=
    ⟨[silentVenue, q], List.pairwise_pair.mpr (.inl later), List.pairwise_pair.mpr other⟩
  listingTimeout := .ofSeconds 2
  quoteTimeout := .ofSeconds 2

def pacedSetup : Setup Street := besideSilent pacedVenue (by decide) (by decide)

def nosySetup : Setup Street := besideSilent nosyVenue (by decide) (by decide)

def pacedDesk : Desk Street where
  floor :=
    { world := .of [.free, (RateLimitPlan.pace? (.perSecond 1 3)).getD .free]
      listings := { ttl := .ofSeconds 3600 } }

theorem pacedDesk_isBlank : pacedDesk.IsBlank := ⟨rfl, fun _ => rfl⟩

theorem silentVenue_failsToList (timeout : Duration) : silentVenue.FailsToList timeout := by
  intro call lists now w
  cases lists
  exact .inr rfl

/-- While the silent venue is waited for, the paced one may be asked again; and the nosy one knows
of it. -/
theorem silent_venue_makes_a_difference :
    silentVenue ∈ pacedSetup.registry.providers ∧
      silentVenue.FailsToList pacedSetup.listingTimeout ∧ pacedDesk.IsBlank ∧
      (quotesForPair pacedSetup pacedDesk coinPair).1 ≠
        (quotesForPair (pacedSetup.muting "silent") pacedDesk coinPair).1 ∧
      (discover nosySetup pacedDesk coinPair none).1.1 ≠
        (discover (nosySetup.muting "silent") pacedDesk coinPair none).1.1 := by
  refine ⟨List.mem_cons_self, silentVenue_failsToList _, pacedDesk_isBlank, fun same => ?_,
    fun same => ?_⟩
  · have quoted : (quotesForPair pacedSetup pacedDesk coinPair).1.toOption.isSome = true := by
      decide +kernel
    have failed : (quotesForPair (pacedSetup.muting "silent") pacedDesk coinPair).1.toOption.isSome
        = false := by
      decide +kernel
    rw [same, failed] at quoted
    cases quoted
  · have unfound : (discover nosySetup pacedDesk coinPair none).1.1.isSome = false := by
      decide +kernel
    have found :
        (discover (nosySetup.muting "silent") pacedDesk coinPair none).1.1.isSome = true := by
      decide +kernel
    rw [same, found] at unfound
    cases unfound

def promptCoins : SimulatedVenue where
  id := "prompt"
  network := ⟨"Coins"⟩
  listing := .ofList [coinPair]
  tickers := ⟨[(coinPair, { price := .one })]⟩

def promptCoinSetup : Setup Street := besideSilent (promptCoins.provider 1) (by decide) (by decide)

theorem silent_unnoticed : Unnoticed promptCoinSetup silentVenue (Street.SameBut 0) where
  own call lists now w w' alike := by
    cases lists
    exact fun j other => (Street.modify_other _ other).trans (alike j other)
  others q member other call lists now := by
    rcases List.mem_cons.mp member with rfl | last
    · exact absurd rfl other
    · cases List.mem_singleton.mp last
      exact (promptCoins.keepsTo 1 lists).same (by decide) _ now

/-- The silent venue is isolated: the prompt one quotes as if it were alone. For the price of a leg
the silent one may still be asked. -/
theorem silent_venue_is_isolated :
    silentVenue ∈ promptCoinSetup.registry.providers ∧
      silentVenue.FailsToList promptCoinSetup.listingTimeout ∧
      Unnoticed promptCoinSetup silentVenue (Street.SameBut 0) ∧ pacedDesk.IsBlank ∧
      Isolated (Street.SameBut 0) promptCoinSetup pacedDesk silentVenue coinPair none ∧
      (quotesForPair promptCoinSetup pacedDesk coinPair).1 =
        (quotesForPair (promptCoinSetup.muting "silent") pacedDesk coinPair).1 ∧
      ∃ m, (discover promptCoinSetup pacedDesk coinPair none).1.1 = some m ∧
        silentVenue ∈ opening.askOrder promptCoinSetup m.first := by
  have isolated : Isolated (Street.SameBut 0) promptCoinSetup pacedDesk silentVenue coinPair none :=
    failing_listing_is_isolated List.mem_cons_self (silentVenue_failsToList _) silent_unnoticed
      pacedDesk_isBlank (.refl 0 _) coinPair none
  refine ⟨List.mem_cons_self, silentVenue_failsToList _, silent_unnoticed, pacedDesk_isBlank,
    isolated, isolated.quoted fun q member other pricing quotes requested => ?_, ?_⟩
  · rcases List.mem_cons.mp member with rfl | last
    · exact absurd rfl other
    · cases List.mem_singleton.mp last
      cases quotes
      exact (Street.keepsTo_count _ _).same (by decide : 1 ≠ 0) promptCoinSetup.quoteTimeout 0
  · have found : ((discover promptCoinSetup pacedDesk coinPair none).1.1.map fun m =>
        silentVenue.network == m.first.network) = some true := by
      decide +kernel
    obtain ⟨m, found, on⟩ := Option.map_eq_some_iff.mp found
    exact ⟨m, found, (isolated.usable m found m.first List.mem_cons_self).2 rfl on⟩

end PriceDesk.Desk
