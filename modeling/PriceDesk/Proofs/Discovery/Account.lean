import PriceDesk.Proofs.Discovery.Legs
import PriceDesk.Proofs.Provider.Ranking

namespace PriceDesk

namespace Discovery

variable {ω : Type} {options : DiscoveryOptions} {registry : Registry ω} {pair : AssetPair}
  {network : Option Network} {answer : Provider ω → Except MarketError Listing}
  {found : Option Match} {p : Provider ω} {a : Attempt}

structure InScope (registry : Registry ω) (network : Option Network) (p : Provider ω) : Prop where
  registered : p ∈ registry.providers
  hasListing : p.listing.isSome = true
  fits : match network with
    | some n => (p.network == n) = true
    | none => p.direct = true

def Quoted (registry : Registry ω) (p : Provider ω) : Prop :=
  ∃ q ∈ registry.providers, q.pricing.isSome = true ∧ (q.network == p.network) = true

structure Loaded (options : DiscoveryOptions) (registry : Registry ω) (network : Option Network)
    (answer : Provider ω → Except MarketError Listing) (p : Provider ω) (l : Listing) : Prop where
  considered : Considered options registry network p
  came : answer p = .ok l

def Uses (found : Option Match) (id : String) : Prop :=
  ∃ m, found = some m ∧ ∃ leg ∈ m.legs, leg.provider = id

def Behind (registry : Registry ω) (found : Option Match) (p : Provider ω) : Prop :=
  ∃ leg, found = some (.plain leg) ∧
    ∃ q ∈ registry.providers, q.id = leg.provider ∧ q.Precedes p

theorem inScope_iff : p ∈ considered registry network ↔ InScope registry network p := by
  rw [mem_considered]
  exact ⟨fun ⟨⟨registered, lists⟩, fits⟩ => ⟨registered, lists, fits⟩,
    fun ⟨registered, lists, fits⟩ => ⟨⟨registered, lists⟩, fits⟩⟩

theorem considered_iff : Considered options registry network p ↔
    InScope registry network p ∧ (options.requirePricing = true → Quoted registry p) :=
  ⟨fun ⟨registered, lists, fits, priced⟩ => ⟨⟨registered, lists, fits⟩, priced⟩,
    fun ⟨⟨registered, lists, fits⟩, priced⟩ => ⟨registered, lists, fits, priced⟩⟩

theorem walk_none (cs : List Candidate) :
    walk none cs = cs.map fun c => .skip c.provider .notListed := by
  induction cs with
  | nil => rfl
  | cons c cs ih => rw [walk, ih, List.map_cons]

theorem walk_converted {m : Match} (converted : m.isConverted = true) (cs : List Candidate) :
    walk (some m) cs = cs.map fun c =>
      if (m.legs.map (·.provider)).contains c.provider then .matching c.provider
      else .skip c.provider .notListed := by
  induction cs with
  | nil => rfl
  | cons c cs ih =>
    simp only [walk, converted, if_true, ih, List.map_cons]
    split <;> rfl

theorem walk_plain {leg : Leg} {before after : List Candidate} {c : Candidate}
    (passed : ∀ b ∈ before, b.provider ≠ leg.provider) (here : c.provider = leg.provider) :
    walk (some (.plain leg)) (before ++ c :: after) =
      before.map (fun b => .skip b.provider .notListed) ++ [.matching c.provider] := by
  induction before with
  | nil => simp [walk, Match.legs, Match.first, Match.second?, Match.isConverted, here]
  | cons b before ih =>
    have differs : b.provider ≠ leg.provider := passed b List.mem_cons_self
    rw [List.cons_append, walk, ih fun d member => passed d (List.mem_cons_of_mem _ member)]
    simp [Match.legs, Match.first, Match.second?, differs]

theorem uses_iff {m : Match} {id : String} :
    Uses (some m) id ↔ id ∈ m.legs.map (·.provider) := by
  simp [Uses]

section Plain

variable {leg : Leg} {q : Provider ω}

theorem uses_plain_iff {id : String} : Uses (some (.plain leg)) id ↔ id = leg.provider :=
  uses_iff.trans List.mem_singleton

theorem behind_plain_iff (registered : q ∈ registry.providers) (named : q.id = leg.provider) :
    Behind registry (some (.plain leg)) p ↔ q.Precedes p := by
  constructor
  · rintro ⟨_, same, q', there, named', before⟩
    cases same
    exact Registry.eq_of_id there registered (named'.trans named.symm) ▸ before
  · exact fun before => ⟨leg, rfl, q, registered, named, before⟩

/-- A provider that is neither that of a match without conversion nor behind it stands before it. -/
theorem ahead_iff (here : p ∈ registry.providers) (registered : q ∈ registry.providers)
    (named : q.id = leg.provider) :
    (¬ Uses (some (.plain leg)) p.id ∧ ¬ Behind registry (some (.plain leg)) p) ↔
      p.Precedes q := by
  rw [uses_plain_iff, behind_plain_iff registered named, ← named]
  constructor
  · rintro ⟨differs, ahead⟩
    rcases Provider.NoWorse.total p q with better | worse
    · exact better.precedes differs
    · exact absurd (worse.precedes (Ne.symm differs)) ahead
  · intro before
    refine ⟨fun same => ?_, fun after => before.not_noWorse after.noWorse⟩
    exact before.not_noWorse (Registry.eq_of_id here registered same ▸ .refl _)

end Plain

theorem not_behind_of_uses (registered : p ∈ registry.providers) (used : Uses found p.id) :
    ¬ Behind registry found p := by
  rintro ⟨leg, rfl, q, there, named, before⟩
  have same := uses_plain_iff.mp used
  have equal := Registry.eq_of_id there registered (named.trans same.symm)
  exact before.not_noWorse (equal ▸ .refl _)

section Records

variable {hs : List (Provider ω × Listing)}

theorem mem_walk_converted {first second : Leg} :
    a ∈ walk (some (.converted first second)) (hs.map candidate) ↔ ∃ x ∈ hs,
      Uses (some (.converted first second)) x.1.id ∧ a = .matching x.1.id ∨
        ¬ Uses (some (.converted first second)) x.1.id ∧ a = .skip x.1.id .notListed := by
  rw [walk_converted rfl, List.map_map, List.mem_map]
  refine exists_congr fun x => and_congr_right fun _ => ?_
  have listed : Uses (some (.converted first second)) x.1.id ↔
      (candidate x).provider ∈ (Match.converted first second).legs.map (·.provider) := uses_iff
  simp only [Function.comp]
  by_cases used : (candidate x).provider ∈ (Match.converted first second).legs.map (·.provider)
  · rw [if_pos (List.contains_iff_mem.mpr used)]
    simp [listed.mpr used, candidate, eq_comm]
  · rw [if_neg (mt List.contains_iff_mem.mp used)]
    simp [mt listed.mp used, candidate, eq_comm]

theorem mem_walk_plain {leg : Leg} {x₀ : Provider ω × Listing}
    (registered : (hs.map (·.1)).Sublist registry.providers) (member : x₀ ∈ hs)
    (here : x₀.1.id = leg.provider) :
    a ∈ walk (some (.plain leg)) (hs.map candidate) ↔ ∃ x ∈ hs,
      x.1.id = leg.provider ∧ a = .matching x.1.id ∨
        x.1.Precedes x₀.1 ∧ a = .skip x.1.id .notListed := by
  have ranked : registry.providers.Pairwise fun p q => p.Precedes q ∧ p.id ≠ q.id :=
    (registry.ordered.and registry.distinct).imp fun both => ⟨both.1.precedes both.2, both.2⟩
  have ranks := List.pairwise_map.mp (ranked.sublist registered)
  obtain ⟨before, after, rfl⟩ := List.append_of_mem member
  obtain ⟨_, late, early⟩ := List.pairwise_append.mp ranks
  have later := (List.pairwise_cons.mp late).1
  have passed : ∀ b ∈ before.map candidate, b.provider ≠ leg.provider := by
    intro b sooner
    obtain ⟨x, inside, rfl⟩ := List.mem_map.mp sooner
    exact here ▸ (early x inside x₀ List.mem_cons_self).2
  rw [List.map_append, List.map_cons, walk_plain passed here, List.map_map]
  constructor
  · intro recorded
    rcases List.mem_append.mp recorded with recorded | recorded
    · obtain ⟨x, inside, rfl⟩ := List.mem_map.mp recorded
      have precedes := (early x inside x₀ List.mem_cons_self).1
      exact ⟨x, List.mem_append_left _ inside, .inr ⟨precedes, rfl⟩⟩
    · exact ⟨x₀, member, .inl ⟨here, List.mem_singleton.mp recorded⟩⟩
  · rintro ⟨x, inside, ⟨same, rfl⟩ | ⟨precedes, rfl⟩⟩
    · refine List.mem_append_right _ (List.mem_singleton.mpr ?_)
      rw [same.trans here.symm]
      rfl
    · rcases List.mem_append.mp inside with inside | inside
      · exact List.mem_append_left _ (List.mem_map.mpr ⟨x, inside, rfl⟩)
      -- The walk does not get to what is not before the provider of the match.
      · rcases List.mem_cons.mp inside with rfl | inside
        · exact absurd (.refl _) precedes.not_noWorse
        · exact absurd precedes.noWorse (later x inside).1.not_noWorse

theorem mem_walk (registered : (hs.map (·.1)).Sublist registry.providers)
    (there : ∀ m, found = some m → ∀ leg ∈ m.legs, ∃ x ∈ hs, x.1.id = leg.provider) :
    a ∈ walk found (hs.map candidate) ↔ ∃ x ∈ hs,
      Uses found x.1.id ∧ a = .matching x.1.id ∨
        ¬ Uses found x.1.id ∧ ¬ Behind registry found x.1 ∧ a = .skip x.1.id .notListed := by
  cases found with
  | none => simp [walk_none, Uses, Behind, candidate, eq_comm]
  | some m =>
    cases m with
    | converted first second =>
      have ahead : ∀ q, ¬ Behind registry (some (.converted first second)) q := by
        rintro q ⟨leg, same, _⟩
        cases same
      simp [mem_walk_converted, ahead]
    | plain leg =>
      obtain ⟨x₀, member, here⟩ := there _ rfl leg List.mem_cons_self
      have within : ∀ x ∈ hs, x.1 ∈ registry.providers := fun x inside =>
        registered.subset (List.mem_map_of_mem inside)
      refine (mem_walk_plain registered member here).trans ?_
      refine exists_congr fun x => and_congr_right fun inside => ?_
      rw [uses_plain_iff, ← and_assoc, ← ahead_iff (within x inside) (within x₀ member) here,
        uses_plain_iff]

end Records

theorem walk_sublist (cs : List Candidate) :
    ((walk found cs).map (·.provider)).Sublist (cs.map (·.provider)) := by
  cases found with
  | none =>
    rw [walk_none, List.map_map]
    exact List.Sublist.refl _
  | some m =>
    induction cs with
    | nil => exact .slnil
    | cons c cs ih =>
      rw [walk]
      split
      · split
        · exact .cons_cons _ ih
        · exact .cons_cons _ (List.nil_sublist _)
      · exact .cons_cons _ ih

inductive Told (options : DiscoveryOptions) (registry : Registry ω) (network : Option Network)
    (answer : Provider ω → Except MarketError Listing) (found : Option Match) (p : Provider ω) :
    Attempt → Prop where
  | unpriced (looks : InScope registry network p) (required : options.requirePricing = true)
    (mute : ¬ Quoted registry p) :
    Told options registry network answer found p (.skip p.id .noPricingProvider)
  | unavailable (looks : Considered options registry network p) {e : MarketError}
    (failed : answer p = .error e) :
    Told options registry network answer found p (.skip p.id (.pairsUnavailable e.message))
  | matched {l : Listing} (loaded : Loaded options registry network answer p l)
    (used : Uses found p.id) :
    Told options registry network answer found p (.matching p.id)
  | passedOver {l : Listing} (loaded : Loaded options registry network answer p l)
    (unused : ¬ Uses found p.id) (ahead : ¬ Behind registry found p) :
    Told options registry network answer found p (.skip p.id .notListed)

namespace Told

theorem provider (told : Told options registry network answer found p a) : a.provider = p.id := by
  cases told <;> rfl

theorem inScope (told : Told options registry network answer found p a) :
    InScope registry network p := by
  cases told with
  | unpriced looks _ _ => exact looks
  | unavailable looks _ => exact (considered_iff.mp looks).1
  | matched loaded _ | passedOver loaded _ _ => exact (considered_iff.mp loaded.considered).1

theorem eq_of_id {q : Provider ω} (told : Told options registry network answer found q a)
    (registered : p ∈ registry.providers) (same : a.provider = p.id) : q = p :=
  Registry.eq_of_id told.inScope.registered registered (told.provider.symm.trans same)

theorem reached (told : Told options registry network answer found p a) :
    ¬ ((∃ l, Loaded options registry network answer p l) ∧ Behind registry found p) := by
  rintro ⟨⟨l, loaded⟩, behind⟩
  cases told with
  | unpriced _ required mute => exact mute ((considered_iff.mp loaded.considered).2 required)
  | unavailable _ failed => cases failed.symm.trans loaded.came
  | matched _ used => exact not_behind_of_uses loaded.considered.registered used behind
  | passedOver _ _ ahead => exact ahead behind

end Told

theorem told_or_behind (looks : InScope registry network p)
    (reached : ¬ ((∃ l, Loaded options registry network answer p l) ∧ Behind registry found p)) :
    ∃ a, Told options registry network answer found p a := by
  by_cases priced : options.requirePricing = true → Quoted registry p
  · have considered := considered_iff.mpr ⟨looks, priced⟩
    cases came : answer p with
    | error e => exact ⟨_, .unavailable considered came⟩
    | ok l =>
      have loaded : Loaded options registry network answer p l := ⟨considered, came⟩
      by_cases used : Uses found p.id
      · exact ⟨_, .matched loaded used⟩
      · exact ⟨_, .passedOver loaded used fun behind => reached ⟨⟨l, loaded⟩, behind⟩⟩
  · obtain ⟨required, mute⟩ := Classical.not_imp.mp priced
    exact ⟨_, .unpriced looks required mute⟩

def failure? (answer : Provider ω → Except MarketError Listing) (p : Provider ω) :
    Option Attempt :=
  match answer p with
  | .ok _ => none
  | .error e => some (.skip p.id (.pairsUnavailable e.message))

theorem mem_failures {ps : List (Provider ω)} :
    a ∈ ps.filterMap (failure? answer) ↔
      ∃ p ∈ ps, ∃ e, answer p = .error e ∧ a = .skip p.id (.pairsUnavailable e.message) := by
  rw [List.mem_filterMap]
  refine exists_congr fun p => and_congr_right fun _ => ?_
  unfold failure?
  cases answer p with
  | ok l => simp
  | error e => simp [eq_comm]

theorem failures_sublist (ps : List (Provider ω)) :
    ((ps.filterMap (failure? answer)).map (·.provider)).Sublist (ps.map (·.id)) := by
  induction ps with
  | nil => exact .slnil
  | cons p ps ih =>
    rw [List.filterMap_cons, failure?]
    cases answer p with
    | ok l => exact .cons _ ih
    | error e => exact .cons_cons _ ih

/-- The providers in scope on whose networks nobody quotes prices, where that is required. -/
def unpriced (options : DiscoveryOptions) (registry : Registry ω) (network : Option Network) :
    List (Provider ω) :=
  (considered registry network).filter (!isPriced options registry ·)

theorem mem_unpriced : p ∈ unpriced options registry network ↔
    InScope registry network p ∧ options.requirePricing = true ∧ ¬ Quoted registry p := by
  rw [unpriced, List.mem_filter, inScope_iff, Bool.not_eq_true', ← Bool.not_eq_true, isPriced_iff]
  exact and_congr_right fun _ => Classical.not_imp

theorem unpriced_sublist : (unpriced options registry network).Sublist registry.providers :=
  List.filter_sublist.trans considered_sublist

def loads (options : DiscoveryOptions) (registry : Registry ω)
    (answer : Provider ω → Except MarketError Listing) (pair : AssetPair)
    (network : Option Network) : List (Provider ω × Listing) :=
  heard (sources options registry pair network) ((sources options registry pair network).map answer)

theorem loads_sublist : ((loads options registry answer pair network).map (·.1)).Sublist
    (sources options registry pair network) := heard_sublist

theorem mem_loads {l : Listing} (proper : pair.isDegenerate = false) :
    (p, l) ∈ loads options registry answer pair network ↔
      Loaded options registry network answer p l := by
  rw [loads, mem_heard_map, mem_sources proper]
  exact ⟨fun given => ⟨given.1, given.2⟩, fun given => ⟨given.considered, given.came⟩⟩

theorem apart (registry : Registry ω) (P Q : Provider ω → Prop) {as bs : List Attempt}
    (one : ∀ a ∈ as, ∃ p ∈ registry.providers, P p ∧ a.provider = p.id)
    (two : ∀ b ∈ bs, ∃ q ∈ registry.providers, Q q ∧ b.provider = q.id)
    (exclusive : ∀ p, P p → ¬ Q p) :
    ∀ x ∈ as.map (·.provider), ∀ y ∈ bs.map (·.provider), x ≠ y := by
  intro x inside y inside' same
  obtain ⟨a, member, rfl⟩ := List.mem_map.mp inside
  obtain ⟨b, member', rfl⟩ := List.mem_map.mp inside'
  obtain ⟨p, registered, first, named⟩ := one a member
  obtain ⟨q, registered', second, named'⟩ := two b member'
  have equal := Registry.eq_of_id registered registered' (named.symm.trans (same.trans named'))
  exact exclusive p first (equal ▸ second)

section Conclusion

variable {d : Diagnostics} (proper : pair.isDegenerate = false)
  (gives : conclude options registry pair network
    ((sources options registry pair network).map answer) = (found, d))
include proper gives

theorem found_eq_search :
    found = search options pair ((loads options registry answer pair network).map candidate) := by
  calc found = (found, d).1 := rfl
    _ = _ := gives ▸ conclude_fst proper

theorem attempts_eq :
    d.attempts = (unpriced options registry network).map (fun p => .skip p.id .noPricingProvider) ++
      ((sources options registry pair network).filterMap (failure? answer) ++
        walk found ((loads options registry answer pair network).map candidate)) := by
  have second := congrArg (·.2.attempts) gives
  simp only [conclude, proper, Bool.false_eq_true, if_false, ← List.map_prod_left_eq_zip,
    List.filterMap_map] at second
  rw [found_eq_search proper gives, ← second, List.append_assoc, loads, heard,
    ← List.map_prod_left_eq_zip, List.filterMap_map, List.map_filterMap]
  simp only [Function.comp_def, Option.map_map]
  rfl

theorem finds_loaded : Finds (Route.Open (Loaded options registry network answer) options pair)
    Route.NoWorse Route.toMatch found := by
  have admits : (fun p l => (p, l) ∈ loads options registry answer pair network) =
      Loaded options registry network answer :=
    funext fun p => funext fun l => propext (mem_loads proper)
  have finds := finds_conclude options registry network
    ((sources options registry pair network).map answer) proper
  rw [gives] at finds
  exact admits ▸ finds

theorem loaded_of_uses {id : String} (used : Uses found id) :
    ∃ q l, Loaded options registry network answer q l ∧ q.id = id := by
  obtain ⟨m, rfl, leg, member, rfl⟩ := used
  obtain ⟨r, isOpen, _, rfl⟩ := finds_loaded proper gives
  obtain ⟨q, l, loaded, named, _⟩ := isOpen.rests.listed leg member
  exact ⟨q, l, loaded, named.symm⟩

theorem mem_walk_loads : a ∈ walk found ((loads options registry answer pair network).map candidate) ↔
    ∃ p l, Loaded options registry network answer p l ∧
      (Uses found p.id ∧ a = .matching p.id ∨
        ¬ Uses found p.id ∧ ¬ Behind registry found p ∧ a = .skip p.id .notListed) := by
  have there : ∀ m, found = some m → ∀ leg ∈ m.legs,
      ∃ x ∈ loads options registry answer pair network, x.1.id = leg.provider := by
    intro m finds leg member
    obtain ⟨q, l, loaded, named⟩ := loaded_of_uses proper gives ⟨m, finds, leg, member, rfl⟩
    exact ⟨(q, l), (mem_loads proper).mpr loaded, named⟩
  rw [mem_walk (loads_sublist.trans sources_sublist) there, Prod.exists]
  exact exists_congr fun p => exists_congr fun l => and_congr_left fun _ => mem_loads proper

theorem mem_attempts :
    a ∈ d.attempts ↔ ∃ p, Told options registry network answer found p a := by
  rw [attempts_eq proper gives, List.mem_append, List.mem_append, mem_failures,
    mem_walk_loads proper gives, List.mem_map]
  constructor
  · rintro (⟨p, member, rfl⟩ | ⟨p, member, e, failed, rfl⟩ | ⟨p, l, loaded, here⟩)
    · obtain ⟨looks, required, mute⟩ := mem_unpriced.mp member
      exact ⟨p, .unpriced looks required mute⟩
    · exact ⟨p, .unavailable ((mem_sources proper).mp member) failed⟩
    · rcases here with ⟨used, rfl⟩ | ⟨unused, ahead, rfl⟩
      · exact ⟨p, .matched loaded used⟩
      · exact ⟨p, .passedOver loaded unused ahead⟩
  · rintro ⟨p, told⟩
    cases told with
    | unpriced looks required mute =>
      exact .inl ⟨p, mem_unpriced.mpr ⟨looks, required, mute⟩, rfl⟩
    | unavailable looks failed =>
      exact .inr (.inl ⟨p, (mem_sources proper).mpr looks, _, failed, rfl⟩)
    | matched loaded used => exact .inr (.inr ⟨p, _, loaded, .inl ⟨used, rfl⟩⟩)
    | passedOver loaded unused ahead =>
      exact .inr (.inr ⟨p, _, loaded, .inr ⟨unused, ahead, rfl⟩⟩)

theorem mem_noPricingProvider (registered : p ∈ registry.providers) :
    .skip p.id .noPricingProvider ∈ d.attempts ↔
      InScope registry network p ∧ options.requirePricing = true ∧ ¬ Quoted registry p := by
  rw [mem_attempts proper gives]
  constructor
  · rintro ⟨q, told⟩
    cases told.eq_of_id registered rfl
    cases told with
    | unpriced looks required mute => exact ⟨looks, required, mute⟩
  · rintro ⟨looks, required, mute⟩
    exact ⟨p, .unpriced looks required mute⟩

theorem mem_pairsUnavailable (registered : p ∈ registry.providers) {message : String} :
    .skip p.id (.pairsUnavailable message) ∈ d.attempts ↔
      Considered options registry network p ∧ ∃ e, answer p = .error e ∧ e.message = message := by
  rw [mem_attempts proper gives]
  constructor
  · rintro ⟨q, told⟩
    cases told.eq_of_id registered rfl
    cases told with
    | unavailable considered failed => exact ⟨considered, _, failed, rfl⟩
  · rintro ⟨considered, e, failed, rfl⟩
    exact ⟨p, .unavailable considered failed⟩

theorem mem_notListed (registered : p ∈ registry.providers) :
    .skip p.id .notListed ∈ d.attempts ↔
      (∃ l, Loaded options registry network answer p l) ∧ ¬ Uses found p.id ∧
        ¬ Behind registry found p := by
  rw [mem_attempts proper gives]
  constructor
  · rintro ⟨q, told⟩
    cases told.eq_of_id registered rfl
    cases told with
    | passedOver loaded unused ahead => exact ⟨⟨_, loaded⟩, unused, ahead⟩
  · rintro ⟨⟨l, loaded⟩, unused, ahead⟩
    exact ⟨p, .passedOver loaded unused ahead⟩

theorem matched_iff_uses {id : String} :
    (∃ a ∈ d.attempts, a.matched = true ∧ a.provider = id) ↔ Uses found id := by
  constructor
  · rintro ⟨a, recorded, matched, rfl⟩
    obtain ⟨p, told⟩ := (mem_attempts proper gives).mp recorded
    cases told with
    | matched _ used => exact used
    | unpriced | unavailable | passedOver => cases matched
  · intro used
    obtain ⟨q, l, loaded, rfl⟩ := loaded_of_uses proper gives used
    exact ⟨_, (mem_attempts proper gives).mpr ⟨q, .matched loaded used⟩, rfl, rfl⟩

theorem hasMatch_iff : d.hasMatch = true ↔ ∃ m, found = some m := by
  rw [Diagnostics.hasMatch, List.any_eq_true]
  constructor
  · rintro ⟨a, recorded, matched⟩
    obtain ⟨m, finds, _⟩ := (matched_iff_uses proper gives).mp ⟨a, recorded, matched, rfl⟩
    exact ⟨m, finds⟩
  · rintro ⟨m, finds⟩
    obtain ⟨a, recorded, matched, _⟩ := (matched_iff_uses proper gives).mpr
      ⟨m, finds, m.first, List.mem_cons_self, rfl⟩
    exact ⟨a, recorded, matched⟩

theorem recorded_iff {id : String} : id ∈ d.attempts.map (·.provider) ↔
    ∃ p, InScope registry network p ∧ p.id = id ∧
      ¬ ((∃ l, Loaded options registry network answer p l) ∧ Behind registry found p) := by
  rw [List.mem_map]
  constructor
  · rintro ⟨a, recorded, rfl⟩
    obtain ⟨p, told⟩ := (mem_attempts proper gives).mp recorded
    exact ⟨p, told.inScope, told.provider.symm, told.reached⟩
  · rintro ⟨p, looks, rfl, reached⟩
    obtain ⟨a, told⟩ := told_or_behind looks reached
    exact ⟨a, (mem_attempts proper gives).mpr ⟨p, told⟩, told.provider⟩

theorem nodup_attempts : (d.attempts.map (·.provider)).Nodup := by
  have ids : ∀ {ps : List (Provider ω)}, ps.Sublist registry.providers →
      (ps.map (·.id)).Nodup := fun within =>
    (List.pairwise_map.mpr registry.distinct).sublist (within.map _)
  have asked : (((sources options registry pair network).filterMap (failure? answer) ++
      walk found ((loads options registry answer pair network).map candidate)).map
        (·.provider)).Nodup := by
    rw [List.map_append]
    refine List.nodup_append.mpr
      ⟨(ids sources_sublist).sublist (failures_sublist _), List.Nodup.sublist (walk_sublist _) ?_,
        apart registry (fun p => (answer p).isOk = false) (fun p => (answer p).isOk = true) ?_ ?_
          fun p failed came => Bool.noConfusion (failed.symm.trans came)⟩
    · rw [List.map_map]
      have walked : ((loads options registry answer pair network).map (·.1)).Sublist
          registry.providers := loads_sublist.trans sources_sublist
      have distinct := ids walked
      rwa [List.map_map] at distinct
    · intro a failure
      obtain ⟨p, member, e, failed, rfl⟩ := mem_failures.mp failure
      exact ⟨p, sources_sublist.subset member, by rw [failed]; rfl, rfl⟩
    · intro a walked
      obtain ⟨p, l, loaded, here⟩ := (mem_walk_loads proper gives).mp walked
      refine ⟨p, loaded.considered.registered, by rw [loaded.came]; rfl, ?_⟩
      rcases here with ⟨_, rfl⟩ | ⟨_, _, rfl⟩ <;> rfl
  rw [attempts_eq proper gives, List.map_append]
  refine List.nodup_append.mpr ⟨?_, asked,
    apart registry (fun p => p ∈ unpriced options registry network)
      (Considered options registry network) ?_ ?_ ?_⟩
  · rw [List.map_map]
    exact ids unpriced_sublist
  · intro a silent
    obtain ⟨p, member, rfl⟩ := List.mem_map.mp silent
    exact ⟨p, unpriced_sublist.subset member, member, rfl⟩
  · intro a told
    rcases List.mem_append.mp told with failure | walked
    · obtain ⟨p, member, e, _, rfl⟩ := mem_failures.mp failure
      exact ⟨p, sources_sublist.subset member, (mem_sources proper).mp member, rfl⟩
    · obtain ⟨p, l, loaded, here⟩ := (mem_walk_loads proper gives).mp walked
      refine ⟨p, loaded.considered.registered, loaded.considered, ?_⟩
      rcases here with ⟨_, rfl⟩ | ⟨_, _, rfl⟩ <;> rfl
  · intro p silent looks
    obtain ⟨_, required, mute⟩ := mem_unpriced.mp silent
    exact mute ((considered_iff.mp looks).2 required)

end Conclusion

structure Account (options : DiscoveryOptions) (registry : Registry ω) (network : Option Network)
    (answer : Provider ω → Except MarketError Listing) (found : Option Match) (d : Diagnostics) :
    Prop where
  once : (d.attempts.map (·.provider)).Nodup
  /-- Those in scope are recorded, but for those whose listings are there and that come after a
  match without conversion. -/
  recorded : ∀ id, id ∈ d.attempts.map (·.provider) ↔ ∃ p, InScope registry network p ∧ p.id = id ∧
    ¬ ((∃ l, Loaded options registry network answer p l) ∧ Behind registry found p)
  hasMatch : d.hasMatch = true ↔ ∃ m, found = some m
  matched : ∀ id, (∃ a ∈ d.attempts, a.matched = true ∧ a.provider = id) ↔ Uses found id
  unpriced : ∀ p, InScope registry network p →
    (.skip p.id .noPricingProvider ∈ d.attempts ↔
      options.requirePricing = true ∧ ¬ Quoted registry p)
  unavailable : ∀ p message, InScope registry network p →
    (.skip p.id (.pairsUnavailable message) ∈ d.attempts ↔
      Considered options registry network p ∧ ∃ e, answer p = .error e ∧ e.message = message)
  passedOver : ∀ p, InScope registry network p →
    (.skip p.id .notListed ∈ d.attempts ↔
      (∃ l, Loaded options registry network answer p l) ∧ ¬ Uses found p.id ∧
        ¬ Behind registry found p)

/-- The diagnostics of a discovery account for every provider in its scope. -/
theorem diagnostics_account_for_providers (options : DiscoveryOptions) (registry : Registry ω)
    (network : Option Network) (answer : Provider ω → Except MarketError Listing)
    (proper : pair.isDegenerate = false) :
    let outcome := conclude options registry pair network
      ((sources options registry pair network).map answer)
    Account options registry network answer outcome.1 outcome.2 := by
  intro outcome
  constructor
  case once => exact nodup_attempts proper rfl
  case recorded => exact fun id => recorded_iff proper rfl
  case hasMatch => exact hasMatch_iff proper rfl
  case matched => exact fun id => matched_iff_uses proper rfl
  case unpriced =>
    exact fun p looks =>
      (mem_noPricingProvider proper rfl looks.registered).trans (and_iff_right looks)
  case unavailable =>
    exact fun p message looks => mem_pairsUnavailable proper rfl looks.registered
  case passedOver => exact fun p looks => mem_notListed proper rfl looks.registered

def trader (id : String) (quotes : Bool) : Provider Unit :=
  { lister id with
    pricing := if quotes then
      some { features := {}, call := fun _ _ _ world => (.now (.ok {}), world) }
    else none }

def traders : Registry Unit where
  providers := [trader "Alpha" false, trader "Beta" true, trader "Delta" true,
    trader "Gamma" true, trader "Omega" true]
  ordered := by
    have ascending : [trader "Alpha" false, trader "Beta" true, trader "Delta" true,
        trader "Gamma" true, trader "Omega" true].Pairwise fun p q => (p.compare q).isLE = true := by
      decide
    exact ascending.imp Provider.compare_isLE_iff.mp
  distinct := by decide

def traded (p : Provider Unit) : Except MarketError Listing :=
  if p.id == "Beta" then .error (.rateLimited "Beta")
  else .ok (.ofList (if p.id == "Delta" then [.of "EUR" "USD"] else [.of "BTC" "USD"]))

theorem traders_are_accounted_for :
    let pair := AssetPair.of "BTC" "USD"
    let outcome := conclude {} traders pair none ((sources {} traders pair none).map traded)
    pair.isDegenerate = false ∧
      outcome.2.attempts =
        [.skip "Alpha" .noPricingProvider, .skip "Beta" (.pairsUnavailable "Rate limited: Beta"),
          .skip "Delta" .notListed, .matching "Gamma"] ∧
      Account {} traders none traded outcome.1 outcome.2 :=
  ⟨rfl, rfl, diagnostics_account_for_providers {} traders none traded rfl⟩

end Discovery

end PriceDesk
