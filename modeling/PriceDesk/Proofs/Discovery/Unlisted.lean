import PriceDesk.Proofs.Discovery.Account

namespace PriceDesk.Discovery

variable {ω : Type} {options : DiscoveryOptions} {registry : Registry ω} {pair : AssetPair}
  {network : Option Network} {answer : Provider ω → Except MarketError Listing}
  {found : Option Match} {p : Provider ω} {l : Listing}

inductive PassedOver (options : DiscoveryOptions) (registry : Registry ω) (pair : AssetPair)
    (found : Option Match) (p : Provider ω) (l : Listing) : Prop where
  | neither (backwards : l.containsReversed pair = false) (unused : ¬ Uses found p.id)
    (ahead : ¬ Behind registry found p)
  | outdone (backwards : l.containsReversed pair = true) {leg : Leg}
    (finds : found = some (.plain leg)) (forwards : leg.isReversed = false) {q : Provider ω}
    (registered : q ∈ registry.providers) (named : q.id = leg.provider) (before : p.Precedes q)
  | unwanted (backwards : l.containsReversed pair = true)
    (disabled : options.reversalEnabled = false) (indirect : ∀ leg, found ≠ some (.plain leg))
    (unused : ¬ Uses found p.id)

theorem Route.Open.registered {o : Offer ω}
    (isOpen : (Route.plain o).Open (Loaded options registry network answer) options pair) :
    o.provider ∈ registry.providers := by
  obtain ⟨_, _, l, loaded, _⟩ := isOpen
  exact loaded.considered.registered

section Conclusion

variable {d : Diagnostics} (proper : pair.isDegenerate = false)
  (gives : conclude options registry pair network
    ((sources options registry pair network).map answer) = (found, d))
include proper gives

theorem plain_of_offered {o : Offer ω}
    (isOpen : (Route.plain o).Open (Loaded options registry network answer) options pair) :
    ∃ o' : Offer ω, (Route.plain o').Open (Loaded options registry network answer) options pair ∧
      o'.NoWorse o ∧ found = some (.plain o'.leg) := by
  have finds := finds_loaded proper gives
  cases found with
  | none => exact absurd isOpen (finds _)
  | some m =>
    obtain ⟨r, isOpen', preferred, rfl⟩ := finds
    have better := preferred _ isOpen
    cases r with
    | plain o' => exact ⟨o', isOpen', better, rfl⟩
    | converted n a b => exact better.elim

theorem offered_of_plain {leg : Leg} (finds : found = some (.plain leg)) :
    ∃ o : Offer ω, (Route.plain o).Open (Loaded options registry network answer) options pair ∧
      o.leg = leg := by
  subst finds
  obtain ⟨r, isOpen, _, same⟩ := finds_loaded proper gives
  cases r with
  | plain o => exact ⟨o, isOpen, Match.plain.inj same⟩
  | converted n a b => cases same

/-- A provider that is passed over and could be asked for the pair lists the reverse, and one that
comes after it is asked for the pair as it stands. -/
theorem outdone_of_open {isReversed : Bool} (unused : ¬ Uses found p.id)
    (ahead : ¬ Behind registry found p)
    (isOpen : (Route.plain ⟨p, pair, isReversed⟩).Open (Loaded options registry network answer)
      options pair) :
    isReversed = true ∧ ∃ q ∈ registry.providers, ∃ leg, found = some (.plain leg) ∧
      leg.isReversed = false ∧ q.id = leg.provider ∧ p.Precedes q := by
  obtain ⟨o, isOpen', better, rfl⟩ := plain_of_offered proper gives isOpen
  have registered := isOpen'.registered
  have before : p.Precedes o.provider :=
    (ahead_iff isOpen.registered registered rfl).mp ⟨unused, ahead⟩
  rcases better with ⟨forwards, backwards⟩ | ⟨_, noWorse⟩
  · exact ⟨backwards, o.provider, registered, o.leg, rfl, forwards, rfl, before⟩
  · exact absurd noWorse before.not_noWorse

theorem passedOver_of_loaded (loaded : Loaded options registry network answer p l)
    (unused : ¬ Uses found p.id) (ahead : ¬ Behind registry found p) :
    l.contains pair = false ∧ PassedOver options registry pair found p l := by
  constructor
  · cases lists : l.contains pair with
    | false => rfl
    | true =>
      have isOpen : (Route.plain ⟨p, pair, false⟩).Open (Loaded options registry network answer)
          options pair := ⟨rfl, nofun, l, loaded, Listing.contains_iff.mp lists⟩
      exact absurd (outdone_of_open proper gives unused ahead isOpen).1 Bool.false_ne_true
  cases lists : l.containsReversed pair with
  | false => exact .neither lists unused ahead
  | true =>
    cases enabled : options.reversalEnabled with
    | true =>
      have isOpen : (Route.plain ⟨p, pair, true⟩).Open (Loaded options registry network answer)
          options pair := ⟨rfl, fun _ => enabled, l, loaded, Listing.contains_iff.mp lists⟩
      obtain ⟨_, q, registered, leg, finds, forwards, named, before⟩ :=
        outdone_of_open proper gives unused ahead isOpen
      exact .outdone lists finds forwards registered named before
    | false =>
      by_cases direct : ∃ leg, found = some (.plain leg)
      · obtain ⟨leg, rfl⟩ := direct
        obtain ⟨o, isOpen, rfl⟩ := offered_of_plain proper gives rfl
        have forwards : o.isReversed = false := Bool.eq_false_iff.mpr fun turned =>
          Bool.false_ne_true (enabled.symm.trans (isOpen.2.1 turned))
        have before := (ahead_iff loaded.considered.registered isOpen.registered rfl).mp
          ⟨unused, ahead⟩
        exact .outdone lists rfl forwards isOpen.registered rfl before
      · exact .unwanted lists enabled (fun leg finds => direct ⟨leg, finds⟩) unused

end Conclusion

theorem PassedOver.ahead (here : p ∈ registry.providers)
    (passed : PassedOver options registry pair found p l) :
    ¬ Uses found p.id ∧ ¬ Behind registry found p := by
  cases passed with
  | neither _ unused ahead => exact ⟨unused, ahead⟩
  | outdone _ finds _ registered named before =>
    exact finds ▸ (ahead_iff here registered named).mpr before
  | unwanted _ _ indirect unused =>
    exact ⟨unused, fun ⟨leg, finds, _⟩ => indirect leg finds⟩

/-- A provider is recorded as not listed if it lists neither the pair nor its reverse, and also if
it lists the reverse and is outdone, or if reverses will not do. -/
theorem not_listed_iff_passed_over (options : DiscoveryOptions) (registry : Registry ω)
    (network : Option Network) (answer : Provider ω → Except MarketError Listing)
    (pair : AssetPair) :
    let outcome := conclude options registry pair network
      ((sources options registry pair network).map answer)
    ∀ p ∈ registry.providers, (.skip p.id .notListed ∈ outcome.2.attempts ↔
      pair.isDegenerate = false ∧ ∃ l, Loaded options registry network answer p l ∧
        l.contains pair = false ∧ PassedOver options registry pair outcome.1 p l) := by
  intro outcome p here
  cases proper : pair.isDegenerate with
  | true =>
    have silent : outcome = (none, {}) := if_pos proper
    simp [silent]
  | false =>
    refine (mem_notListed proper rfl here).trans ?_
    constructor
    · rintro ⟨⟨l, loaded⟩, unused, ahead⟩
      exact ⟨rfl, l, loaded, passedOver_of_loaded proper rfl loaded unused ahead⟩
    · rintro ⟨_, l, loaded, _, passed⟩
      exact ⟨⟨l, loaded⟩, passed.ahead here⟩

/-- The trader that lists the reverse is passed over where a reverse will not do. -/
theorem delta_is_passed_over :
    let options : DiscoveryOptions := { reversalEnabled := false }
    let pair := AssetPair.of "USD" "EUR"
    let outcome := conclude options traders pair none
      ((sources options traders pair none).map traded)
    let delta := trader "Delta" true
    delta ∈ traders.providers ∧ .skip delta.id .notListed ∈ outcome.2.attempts ∧
      ∃ l, Loaded options traders none traded delta l ∧ l.contains pair = false ∧
        PassedOver options traders pair outcome.1 delta l := by
  intro options pair outcome delta
  have here : delta ∈ traders.providers := .tail _ (.tail _ (.head _))
  have recorded : .skip delta.id .notListed ∈ outcome.2.attempts := by decide
  have passed := not_listed_iff_passed_over options traders none traded pair delta here
  exact ⟨here, recorded, (passed.mp recorded).2⟩

def rivals : Registry Unit where
  providers := [trader "Alpha" true, trader "Bravo" true]
  ordered := List.pairwise_pair.mpr (.inr ⟨rfl, .inl (by decide)⟩)
  distinct := List.pairwise_pair.mpr (by decide)

def opposed (p : Provider Unit) : Except MarketError Listing :=
  .ok (.ofList (if p.id == "Alpha" then [.of "BTC" "ETH"] else [.of "ETH" "BTC"]))

/-- Not every provider that is recorded as not listed lists neither the pair nor its reverse. -/
theorem alpha_lists_the_reverse :
    let pair := AssetPair.of "ETH" "BTC"
    let outcome := conclude {} rivals pair none ((sources {} rivals pair none).map opposed)
    ¬ ∀ p ∈ rivals.providers, .skip p.id .notListed ∈ outcome.2.attempts →
      ∀ l, opposed p = .ok l → l.contains pair = false ∧ l.containsReversed pair = false := by
  intro pair outcome truthful
  have recorded : .skip "Alpha" .notListed ∈ outcome.2.attempts := by decide
  have listing : opposed (trader "Alpha" true) = .ok (.ofList [.of "BTC" "ETH"]) := rfl
  have reversed : (Listing.ofList [.of "BTC" "ETH"]).containsReversed pair = true := by decide
  have neither := truthful _ List.mem_cons_self recorded _ listing
  exact Bool.noConfusion (reversed.symm.trans neither.2)

end PriceDesk.Discovery
