import PriceDesk.Proofs.Discovery.Routes

namespace PriceDesk.Discovery

variable {ω : Type} {options : DiscoveryOptions} {registry : Registry ω} {pair : AssetPair}
  {network : Option Network}

structure Considered (options : DiscoveryOptions) (registry : Registry ω)
    (network : Option Network) (p : Provider ω) : Prop where
  registered : p ∈ registry.providers
  hasListing : p.listing.isSome = true
  inScope : match network with
    | some n => (p.network == n) = true
    | none => p.direct = true
  isPriced : options.requirePricing = true →
    ∃ q ∈ registry.providers, q.pricing.isSome = true ∧ (q.network == p.network) = true

theorem mem_having {c : Capability} {p : Provider ω} :
    p ∈ registry.having c ↔ p ∈ registry.providers ∧ p.has c = true := by
  rw [Registry.having_eq, List.mem_filter]

theorem mem_of_preferred? {n : Network} {c : Capability} {p : Provider ω}
    (preferred : registry.preferred? n c = some p) : p ∈ registry.providers :=
  (mem_having.mp (List.mem_of_find?_eq_some preferred)).1

theorem mem_of_direct {c : Capability} {p : Provider ω} (direct : p ∈ registry.direct c) :
    p ∈ registry.providers :=
  (mem_having.mp (List.mem_filter.mp direct).1).1

theorem isPriced_iff {p : Provider ω} :
    isPriced options registry p = true ↔
      (options.requirePricing = true →
        ∃ q ∈ registry.providers, q.pricing.isSome = true ∧ (q.network == p.network) = true) := by
  rw [isPriced, Bool.or_eq_true, Bool.not_eq_true', Registry.preferred?, List.find?_isSome]
  constructor
  · intro either required
    rcases either with notRequired | ⟨q, member, same⟩
    · exact Bool.noConfusion (notRequired.symm.trans required)
    · obtain ⟨registered, quotes⟩ := mem_having.mp member
      exact ⟨q, registered, quotes, same⟩
  · intro priced
    cases required : options.requirePricing with
    | false => exact .inl rfl
    | true =>
      obtain ⟨q, registered, quotes, same⟩ := priced required
      exact .inr ⟨q, mem_having.mpr ⟨registered, quotes⟩, same⟩

theorem mem_considered {p : Provider ω} :
    p ∈ considered registry network ↔
      (p ∈ registry.providers ∧ p.listing.isSome = true) ∧ match network with
        | some n => (p.network == n) = true
        | none => p.direct = true := by
  cases network with
  | some n => exact List.mem_filter.trans (and_congr mem_having Iff.rfl)
  | none => exact List.mem_filter.trans (and_congr mem_having Iff.rfl)

theorem mem_sources (proper : pair.isDegenerate = false) {p : Provider ω} :
    p ∈ sources options registry pair network ↔ Considered options registry network p := by
  simp only [sources, proper, Bool.false_eq_true, if_false, List.mem_filter, mem_considered,
    isPriced_iff]
  constructor
  · intro given
    obtain ⟨⟨⟨registered, hasListing⟩, inScope⟩, isPriced⟩ := given
    exact ⟨registered, hasListing, inScope, isPriced⟩
  · intro given
    obtain ⟨registered, hasListing, inScope, isPriced⟩ := given
    exact ⟨⟨⟨registered, hasListing⟩, inScope⟩, isPriced⟩

theorem considered_sublist : (considered registry network).Sublist registry.providers := by
  cases network with
  | some n => exact List.filter_sublist.trans Registry.having_sublist
  | none => exact List.filter_sublist.trans Registry.having_sublist

theorem sources_sublist :
    (sources options registry pair network).Sublist registry.providers := by
  unfold sources
  split
  · exact List.nil_sublist _
  · exact List.filter_sublist.trans considered_sublist

def heard (ps : List (Provider ω)) (listings : List (Except MarketError Listing)) :
    List (Provider ω × Listing) :=
  (ps.zip listings).filterMap fun (p, listing) => listing.toOption.map (p, ·)

theorem heard_sublist {ps : List (Provider ω)} {listings : List (Except MarketError Listing)} :
    ((heard ps listings).map (·.1)).Sublist ps := by
  induction ps generalizing listings with
  | nil => exact .slnil
  | cons p ps ih =>
    cases listings with
    | nil => exact List.nil_sublist _
    | cons listing listings =>
      cases listing with
      | ok l => exact .cons_cons p ih
      | error e => exact .cons p ih

theorem mem_of_mem_heard {ps : List (Provider ω)} {listings : List (Except MarketError Listing)}
    {p : Provider ω} {l : Listing} (member : (p, l) ∈ heard ps listings) : p ∈ ps :=
  heard_sublist.subset (List.mem_map.mpr ⟨(p, l), member, rfl⟩)

theorem mem_heard_map {ps : List (Provider ω)} {outcome : Provider ω → Except MarketError Listing}
    {p : Provider ω} {l : Listing} :
    (p, l) ∈ heard ps (ps.map outcome) ↔ p ∈ ps ∧ outcome p = .ok l := by
  rw [heard, ← List.map_prod_left_eq_zip, List.filterMap_map, List.mem_filterMap]
  constructor
  · intro given
    obtain ⟨q, member, came⟩ := given
    simp only [Function.comp] at came
    cases loaded : outcome q with
    | error e =>
      rw [loaded] at came
      cases came
    | ok listing =>
      rw [loaded] at came
      cases came
      exact ⟨member, loaded⟩
  · intro given
    obtain ⟨member, loaded⟩ := given
    refine ⟨p, member, ?_⟩
    simp only [Function.comp, loaded, Except.toOption, Option.map]

theorem conclude_fst (proper : pair.isDegenerate = false)
    {listings : List (Except MarketError Listing)} :
    (conclude options registry pair network listings).1 =
      search options pair
        ((heard (sources options registry pair network) listings).map candidate) := by
  simp only [conclude, proper, Bool.false_eq_true, if_false, heard, List.map_filterMap,
    Option.map_map]
  rfl

theorem finds_conclude (options : DiscoveryOptions) (registry : Registry ω)
    (network : Option Network) (listings : List (Except MarketError Listing))
    (proper : pair.isDegenerate = false) :
    Finds
      (Route.Open (fun p l => (p, l) ∈ heard (sources options registry pair network) listings)
        options pair)
      Route.NoWorse Route.toMatch (conclude options registry pair network listings).1 := by
  have sorted : (heard (sources options registry pair network) listings).Pairwise
      fun p q => p.1.NoWorse q.1 :=
    List.pairwise_map.mp (registry.ordered.sublist (heard_sublist.trans sources_sublist))
  rw [conclude_fst proper]
  exact finds_search pair sorted options

namespace Finds

variable {ρ β : Type} {P : ρ → Prop} {NoWorse : ρ → ρ → Prop} {view : ρ → β} {x : Option β}

theorem eq_none_iff (finds : Finds P NoWorse view x) : x = none ↔ ∀ r, ¬ P r := by
  cases x with
  | none => exact ⟨fun _ => finds, fun _ => rfl⟩
  | some b =>
    obtain ⟨r, found, _⟩ := finds
    exact ⟨nofun, fun closed => absurd found (closed r)⟩

theorem eq_some_iff (finds : Finds P NoWorse view x)
    (unique : ∀ r r', P r → P r' → NoWorse r r' → NoWorse r' r → view r = view r') (b : β) :
    x = some b ↔ ∃ r, (P r ∧ ∀ r', P r' → NoWorse r r') ∧ view r = b := by
  cases x with
  | none =>
    refine ⟨nofun, ?_⟩
    intro given
    obtain ⟨r, ⟨found, _⟩, _⟩ := given
    exact absurd found (finds r)
  | some c =>
    obtain ⟨r, found, preferred, rfl⟩ := finds
    constructor
    · intro given
      cases given
      exact ⟨r, ⟨found, preferred⟩, rfl⟩
    · intro given
      obtain ⟨r', ⟨found', preferred'⟩, rfl⟩ := given
      exact congrArg some (unique r r' found found' (preferred r' found') (preferred' r found))

end Finds

section Uniqueness

variable {Admits : Provider ω → Listing → Prop}

theorem Offer.leg_eq (registered : ∀ p l, Admits p l → p ∈ registry.providers) {a b : Offer ω}
    (aOpen : a.Open Admits) (bOpen : b.Open Admits) (samePair : a.pair = b.pair)
    (one : a.NoWorse b) (two : b.NoWorse a) : a.leg = b.leg := by
  obtain ⟨l, admits, _⟩ := aOpen
  obtain ⟨l', admits', _⟩ := bOpen
  rcases one with ⟨forwards, backwards⟩ | ⟨sameDirection, preferred⟩
  · rcases two with ⟨forwards', _⟩ | ⟨sameDirection, _⟩
    · exact Bool.noConfusion (forwards'.symm.trans backwards)
    · exact Bool.noConfusion (forwards.symm.trans (sameDirection.symm.trans backwards))
  · rcases two with ⟨forwards', backwards'⟩ | ⟨_, preferred'⟩
    · exact Bool.noConfusion (forwards'.symm.trans (sameDirection.symm.trans backwards'))
    · have same := Registry.eq_of_id (registered _ l admits) (registered _ l' admits')
        (preferred.id_eq preferred')
      rw [Offer.leg, Offer.leg, same, samePair, sameDirection]

theorem Route.toMatch_eq (registered : ∀ p l, Admits p l → p ∈ registry.providers)
    {r r' : Route ω} (rOpen : r.Open Admits options pair) (rOpen' : r'.Open Admits options pair)
    (one : r.NoWorse r') (two : r'.NoWorse r) : r.toMatch = r'.toMatch := by
  cases r with
  | plain a =>
    cases r' with
    | plain b =>
      exact congrArg Match.plain
        (Offer.leg_eq registered rOpen.2.2 rOpen'.2.2 (rOpen.1.trans rOpen'.1.symm) one two)
    | converted n a' b' => exact two.elim
  | converted m a b =>
    cases r' with
    | plain a' => exact one.elim
    | converted n a' b' =>
      rcases one with sooner | ⟨rfl, first, second⟩
      · rcases two with later | ⟨same, _⟩
        · exact absurd sooner (Nat.lt_asymm later)
        · exact absurd (same ▸ sooner) (Nat.lt_irrefl _)
      rcases two with later | ⟨_, first', second'⟩
      · exact absurd later (Nat.lt_irrefl _)
      obtain ⟨_, i, there, meet⟩ := rOpen
      obtain ⟨_, j, there', meet'⟩ := rOpen'
      cases Option.some.inj (there.symm.trans there')
      have firsts := Offer.leg_eq registered meet.firstOpen meet'.firstOpen
        (meet.firstPair.trans meet'.firstPair.symm) first first'
      have seconds := Offer.leg_eq registered meet.secondOpen meet'.secondOpen
        (meet.secondPair.trans meet'.secondPair.symm) second second'
      rw [Route.toMatch, Route.toMatch, firsts, seconds]

end Uniqueness

structure Rests (Admits : Provider ω → Listing → Prop) (options : DiscoveryOptions)
    (pair : AssetPair) (m : Match) : Prop where
  requested : m.requestedPair = pair
  listed : ∀ leg ∈ m.legs, ∃ p l, Admits p l ∧ leg.provider = p.id ∧ leg.network = p.network ∧
    leg.providerPair ∈ l.pairs
  meets : ∀ first second, m = .converted first second →
    ∃ i ∈ options.intermediaries, i ≠ pair.asset1 ∧ i ≠ pair.asset2 ∧
      first.pair = ⟨pair.asset1, i⟩ ∧ second.pair = ⟨i, pair.asset2⟩

section Rests

variable {Admits : Provider ω → Listing → Prop}

theorem Offer.Open.listed {o : Offer ω} (isOpen : o.Open Admits) :
    ∃ p l, Admits p l ∧ o.leg.provider = p.id ∧ o.leg.network = p.network ∧
      o.leg.providerPair ∈ l.pairs := by
  obtain ⟨l, admits, lists⟩ := isOpen
  exact ⟨o.provider, l, admits, rfl, rfl, lists⟩

theorem Route.Open.rests {r : Route ω} (isOpen : r.Open Admits options pair) :
    Rests Admits options pair r.toMatch := by
  cases r with
  | plain o =>
    obtain ⟨fits, _, lists⟩ := isOpen
    refine ⟨fits, ?_, fun _ _ same => Match.noConfusion same⟩
    intro leg member
    cases List.mem_singleton.mp member
    exact lists.listed
  | converted n a b =>
    obtain ⟨_, i, there, meet⟩ := isOpen
    refine ⟨?_, ?_, ?_⟩
    · simp only [toMatch, Match.requestedPair, Offer.leg, meet.firstPair, meet.secondPair]
    · intro leg member
      rcases List.mem_cons.mp member with rfl | member
      · exact meet.firstOpen.listed
      · cases List.mem_singleton.mp member
        exact meet.secondOpen.listed
    · intro _ _ given
      cases given
      exact ⟨i, List.mem_of_getElem? there, meet.notBase, meet.notQuote, meet.firstPair,
        meet.secondPair⟩

/-- Every match that discovery gives rests on providers that it considers, and fits the network
that was asked for. -/
theorem conclude_rests {listings : List (Except MarketError Listing)} {m : Match}
    {diagnostics : Diagnostics}
    (gives : conclude options registry pair network listings = (some m, diagnostics)) :
    Rests (fun p _ => Considered options registry network p) options pair m ∧
      ∀ leg ∈ m.legs, ∀ n, network = some n → (leg.network == n) = true := by
  cases proper : pair.isDegenerate with
  | true =>
    rw [conclude, if_pos proper] at gives
    cases gives
  | false =>
    have finds := finds_conclude options registry network listings proper
    rw [gives] at finds
    obtain ⟨r, isOpen, _, rfl⟩ := finds
    have rests := isOpen.rests
    have considered : ∀ leg ∈ r.toMatch.legs, ∃ p, ∃ l : Listing,
        Considered options registry network p ∧ leg.provider = p.id ∧ leg.network = p.network ∧
          leg.providerPair ∈ l.pairs := by
      intro leg member
      obtain ⟨p, l, loaded, rest⟩ := rests.listed leg member
      exact ⟨p, l, (mem_sources proper).mp (mem_of_mem_heard loaded), rest⟩
    refine ⟨⟨rests.requested, considered, rests.meets⟩, ?_⟩
    intro leg member n asked
    obtain ⟨p, _, used, _, onNetwork, _⟩ := considered leg member
    subst asked
    rw [onNetwork]
    exact used.inScope

end Rests

/-- Discovery gives the match of the best open route, and none exactly where no route is open,
whatever the listings of the providers turn out to be. -/
theorem conclude_gives_best_route (options : DiscoveryOptions) (registry : Registry ω)
    (network : Option Network) (outcome : Provider ω → Except MarketError Listing)
    (proper : pair.isDegenerate = false) :
    let found := (conclude options registry pair network
      ((sources options registry pair network).map outcome)).1
    let Admits := fun p l => Considered options registry network p ∧ outcome p = .ok l
    (found = none ↔ ∀ r : Route ω, ¬ r.Open Admits options pair) ∧
      (∀ m, found = some m ↔ ∃ r : Route ω, r.Best Admits options pair ∧ r.toMatch = m) ∧
      ∀ m, found = some m → Rests Admits options pair m := by
  intro found Admits
  have admits : (fun p l => (p, l) ∈ heard (sources options registry pair network)
      ((sources options registry pair network).map outcome)) = Admits :=
    funext fun p => funext fun l => propext (by rw [mem_heard_map, mem_sources proper])
  have finds := finds_conclude options registry network
    ((sources options registry pair network).map outcome) proper
  rw [admits] at finds
  have best := finds.eq_some_iff fun r r' rOpen rOpen' =>
    Route.toMatch_eq (fun p l admitted => admitted.1.registered) rOpen rOpen'
  refine ⟨finds.eq_none_iff, best, ?_⟩
  intro m gives
  obtain ⟨r, ⟨isOpen, _⟩, rfl⟩ := (best m).mp gives
  exact isOpen.rests

def lister (id : String) : Provider Unit where
  id
  network := ⟨id⟩
  title := id
  listing := some fun _ _ world => (.now (.ok .empty), world)

def listers : Registry Unit where
  providers := [lister "Alpha", lister "Beta"]
  ordered := List.pairwise_pair.mpr (.inr ⟨rfl, .inl (by decide)⟩)
  distinct := List.pairwise_pair.mpr (by decide)

def wares (p : Provider Unit) : Except MarketError Listing :=
  .ok (.ofList (if p.id == "Alpha" then [.of "BTC" "USD"] else [.of "EUR" "USD"]))

theorem listers_price_through_usd :
    let options : DiscoveryOptions := { requirePricing := false }
    let m : Match := .converted
      { provider := "Alpha", network := ⟨"Alpha"⟩, pair := .of "BTC" "USD", isReversed := false }
      { provider := "Beta", network := ⟨"Beta"⟩, pair := .of "USD" "EUR", isReversed := true }
    (AssetPair.of "BTC" "EUR").isDegenerate = false ∧
      ∃ r : Route Unit, r.Best (fun p l => Considered options listers none p ∧ wares p = .ok l)
        options (.of "BTC" "EUR") ∧ r.toMatch = m :=
  ⟨rfl, ((conclude_gives_best_route _ listers none wares rfl).2.1 _).mp rfl⟩

end PriceDesk.Discovery
