import Mathlib.Data.List.Basic
import PriceDesk.Proofs.Discovery.BestMatch

namespace PriceDesk.Discovery

variable {ω : Type} {options : DiscoveryOptions} {registry : Registry ω} {pair : AssetPair}
  {answer : Provider ω → Except MarketError Listing}

def lineup (options : DiscoveryOptions) (registry : Registry ω)
    (answer : Provider ω → Except MarketError Listing) (network : Option Network) :
    List Candidate :=
  ((considered registry network).filter (isPriced options registry)).filterMap fun p =>
    (answer p).toOption.map fun listing => candidate (p, listing)

def found (options : DiscoveryOptions) (registry : Registry ω)
    (answer : Provider ω → Except MarketError Listing) (pair : AssetPair)
    (network : Option Network) : Option Match :=
  (conclude options registry pair network ((sources options registry pair network).map answer)).1

theorem found_eq (proper : pair.isDegenerate = false) (network : Option Network) :
    found options registry answer pair network =
      search options pair (lineup options registry answer network) := by
  rw [found, conclude_fst proper, heard, ← List.map_prod_left_eq_zip, List.filterMap_map,
    List.map_filterMap]
  simp only [sources, proper, lineup, Function.comp_def, Option.map_map, Bool.false_eq_true,
    if_false]

theorem found_of_isDegenerate (degenerate : pair.isDegenerate = true) (network : Option Network) :
    found options registry answer pair network = none := by
  rw [found, conclude, if_pos degenerate]

theorem findLeg_pair {cs : List Candidate} {leg : Leg} (found : findLeg pair cs = some leg) :
    leg.pair = pair := by
  rcases Option.or_eq_some_iff.mp found with direct | ⟨_, reversed⟩
  · obtain ⟨c, _, rfl⟩ := Option.map_eq_some_iff.mp direct
    rfl
  · obtain ⟨c, _, rfl⟩ := Option.map_eq_some_iff.mp reversed
    rfl

/-- A pass of the search gives what it finds where those before have found nothing. -/
inductive Searched (pair : AssetPair) (cs : List Candidate) : Match → Prop
  | direct {leg : Leg} (found : findDirect pair cs = some leg) : Searched pair cs (.plain leg)
  | reversed {leg : Leg} (nobody : findDirect pair cs = none)
    (found : findReversed pair cs = some leg) : Searched pair cs (.plain leg)
  | converted {first second : Leg} (one : findLeg first.pair cs = some first)
    (two : findLeg second.pair cs = some second) : Searched pair cs (.converted first second)

theorem searched {cs : List Candidate} {m : Match} (gives : search options pair cs = some m) :
    Searched pair cs m := by
  rcases Option.or_eq_some_iff.mp gives with direct | ⟨nobody, gives⟩
  · obtain ⟨leg, found, rfl⟩ := Option.map_eq_some_iff.mp direct
    exact .direct found
  rcases Option.or_eq_some_iff.mp gives with reversed | ⟨_, gives⟩
  · split at reversed
    · obtain ⟨leg, found, rfl⟩ := Option.map_eq_some_iff.mp reversed
      exact .reversed (Option.map_eq_none_iff.mp nobody) found
    · cases reversed
  split at gives
  · obtain ⟨i, _, leads⟩ := List.exists_of_findSome?_eq_some gives
    unfold through at leads
    split at leads
    · cases leads
    · obtain ⟨a, one, leads⟩ := Option.bind_eq_some_iff.mp leads
      obtain ⟨b, two, leads⟩ := Option.bind_eq_some_iff.mp leads
      cases leads
      exact .converted (findLeg_pair one ▸ one) (findLeg_pair two ▸ two)
  · cases gives

theorem legs_of_search {cs : List Candidate} {first second : Leg}
    (gives : search options pair cs = some (.converted first second)) :
    findLeg first.pair cs = some first ∧ findLeg second.pair cs = some second := by
  cases searched gives with
  | converted one two => exact ⟨one, two⟩

theorem legs_of_found {network : Option Network} {first second : Leg}
    (gives : found options registry answer pair network = some (.converted first second)) :
    findLeg first.pair (lineup options registry answer network) = some first ∧
      findLeg second.pair (lineup options registry answer network) = some second := by
  cases proper : pair.isDegenerate with
  | true =>
    rw [found_of_isDegenerate proper] at gives
    cases gives
  | false =>
    rw [found_eq proper] at gives
    exact legs_of_search gives

section Filter

variable {cs : List Candidate} {wanted fits : Candidate → Bool}

theorem find?_and_of_some {c : Candidate} (found : cs.find? wanted = some c)
    (fit : fits c = true) : (cs.filter fits).find? wanted = some c := by
  rw [List.find?_filter]
  obtain ⟨wants, before, after, split, passed⟩ := List.find?_eq_some_iff_append.mp found
  refine List.find?_eq_some_iff_append.mpr ⟨by simp [wants, fit], before, after, split, ?_⟩
  intro other sooner
  simp [Bool.not_eq_true' _ ▸ passed other sooner]

theorem find?_and_of_none (missing : cs.find? wanted = none) :
    (cs.filter fits).find? wanted = none := by
  apply List.find?_eq_none.mpr
  intro c member
  exact List.find?_eq_none.mp missing c (List.mem_filter.mp member).1

theorem findLeg_filter {leg : Leg} {n : Network} (found : findLeg pair cs = some leg)
    (on : (leg.network == n) = true) : findLeg pair (cs.filter (·.network == n)) = some leg := by
  rcases Option.or_eq_some_iff.mp found with direct | ⟨nobody, reversed⟩
  · obtain ⟨c, first, rfl⟩ := Option.map_eq_some_iff.mp direct
    refine Option.or_eq_some_iff.mpr (.inl ?_)
    rw [findDirect, find?_and_of_some first on]
    rfl
  · obtain ⟨c, first, rfl⟩ := Option.map_eq_some_iff.mp reversed
    refine Option.or_eq_some_iff.mpr (.inr ⟨?_, ?_⟩)
    · rw [findDirect, find?_and_of_none (Option.map_eq_none_iff.mp nobody)]
      rfl
    · rw [findReversed, find?_and_of_some first on]
      rfl

end Filter

theorem considered_congr {network network' : Option Network}
    (same : network.map Network.key = network'.map Network.key) :
    considered registry network = considered registry network' := by
  cases network with
  | none =>
    cases network' with
    | none => rfl
    | some n' => cases same
  | some n =>
    cases network' with
    | none => cases same
    | some n' =>
      have equal : (n == n') = true := Network.beq_iff.mpr (Option.some.inj same)
      refine List.filter_congr fun p _ => ?_
      exact BEq.congr_right equal

theorem found_congr {network network' : Option Network}
    (same : network.map Network.key = network'.map Network.key) :
    found options registry answer pair network = found options registry answer pair network' := by
  cases proper : pair.isDegenerate with
  | true => rw [found_of_isDegenerate proper, found_of_isDegenerate proper]
  | false => rw [found_eq proper, found_eq proper, lineup, lineup, considered_congr same]

/-- Where everybody asks the network itself who lists something on it, the candidates of the
network are those of a search on no network in particular. -/
theorem lineup_filter {n : Network}
    (direct : ∀ p ∈ registry.onNetwork n .assetPairs, p.direct = true) :
    (lineup options registry answer none).filter (·.network == n) =
      lineup options registry answer (some n) := by
  have networks : ∀ ps : List (Provider ω),
      (ps.filterMap fun p => (answer p).toOption.map fun listing => candidate (p, listing)).filter
        (·.network == n) =
      (ps.filter (·.network == n)).filterMap fun p =>
        (answer p).toOption.map fun listing => candidate (p, listing) := by
    intro ps
    rw [List.filter_filterMap, List.filterMap_filter]
    congr 1
    funext p
    cases (answer p).toOption with
    | none => simp
    | some listing => rfl
  have same : (considered registry none).filter (·.network == n) =
      considered registry (some n) := by
    rw [considered, considered, Registry.direct, List.filter_comm]
    exact List.filter_eq_self.mpr direct
  rw [lineup, networks, List.filter_comm, same, lineup]

theorem network_findLeg {n : Network} {leg : Leg}
    (gives : findLeg pair (lineup options registry answer (some n)) = some leg) :
    (leg.network == n) = true := by
  have on : ∀ c ∈ lineup options registry answer (some n), (c.network == n) = true := by
    intro c member
    obtain ⟨p, there, came⟩ := List.mem_filterMap.mp member
    obtain ⟨listing, _, rfl⟩ := Option.map_eq_some_iff.mp came
    exact (List.mem_filter.mp (List.mem_filter.mp there).1).2
  rcases Option.or_eq_some_iff.mp gives with direct | ⟨_, reversed⟩
  · obtain ⟨c, first, rfl⟩ := Option.map_eq_some_iff.mp direct
    exact on c (List.mem_of_find?_eq_some first)
  · obtain ⟨c, first, rfl⟩ := Option.map_eq_some_iff.mp reversed
    exact on c (List.mem_of_find?_eq_some first)

theorem findLeg_congr {network network' : Option Network}
    (same : network.map Network.key = network'.map Network.key) {leg leg' : Leg}
    (one : findLeg leg.pair (lineup options registry answer network) = some leg)
    (two : findLeg leg'.pair (lineup options registry answer network') = some leg')
    (samePair : leg.pair = leg'.pair) : leg = leg' := by
  rw [lineup, considered_congr same, ← lineup, samePair, two] at one
  exact (Option.some.inj one).symm

theorem findLeg_anywhere {n : Network}
    (direct : ∀ p ∈ registry.onNetwork n .assetPairs, p.direct = true) {leg leg' : Leg}
    (one : findLeg leg.pair (lineup options registry answer none) = some leg)
    (two : findLeg leg'.pair (lineup options registry answer (some n)) = some leg')
    (samePair : leg.pair = leg'.pair) (sameNetwork : (leg.network == leg'.network) = true) :
    leg = leg' := by
  have on : (leg.network == n) = true := BEq.trans sameNetwork (network_findLeg two)
  have filtered := findLeg_filter one on
  rw [lineup_filter direct, samePair, two] at filtered
  exact (Option.some.inj filtered).symm

end PriceDesk.Discovery
