import PriceDesk.Proofs.Desk.Steady

namespace PriceDesk

variable {ω : Type}

def Met (moves : List (Move ω)) (k l : RequestKey) : Prop :=
  ∃ m ∈ moves, ∃ f ∈ m.before.flights, ∃ g ∈ m.before.flights, f.stage.result? = none ∧
    g.stage.result? = none ∧ (f.key == k) = true ∧ (g.key == l) = true

/-- Whether one of two requests names no network, and the other names one on which somebody lists
pairs who does not ask the network itself. -/
def Mixed (s : Setup ω) (k l : RequestKey) : Prop :=
  ∃ n, (k.network = none ∧ l.network = some n ∨ k.network = some n ∧ l.network = none) ∧
    ∃ p ∈ s.registry.onNetwork n .assetPairs, p.direct = false

section

variable (answers : Answers ω) (s : Setup ω) (moves : List (Move ω))

/-- The second legs with which a request may be priced, if this one is found for it. -/
inductive Lends (key : RequestKey) (second : Leg) : Leg → Prop
  | own : Lends key second second
  | other {k : RequestKey} {first leg : Leg} (whole : k.role = .whole) (met : Met moves key k)
      (mixed : Mixed s key k) (found : answers.found s k = some (.converted first leg))
      (pair : leg.pair = second.pair) (network : (leg.network == second.network) = true) :
      Lends key second leg

inductive Comes (key : RequestKey) : PriceResult → Prop
  | own : Comes key (answers.alone s key)
  | lent {first second other : Leg}
      (found : answers.found s key = some (.converted first second))
      (lends : Lends answers s moves key second other) :
      Comes key (answers.price s key.pair (some (.converted first other)))

end

variable {answers : Answers ω} {s : Setup ω} {moves : List (Move ω)} {key : RequestKey}

theorem Met.mono {k : RequestKey} (met : Met moves key k) (later : List (Move ω)) :
    Met (moves ++ later) key k := by
  obtain ⟨n, member, together⟩ := met
  exact ⟨n, List.mem_append_left _ member, together⟩

theorem Met.of_beq {k l : RequestKey} (met : Met moves key k) (same : (key == l) = true) :
    Met moves l k := by
  obtain ⟨m, member, f, one, g, two, going, going', key, key'⟩ := met
  exact ⟨m, member, f, one, g, two, going, going', BEq.trans key same, key'⟩

theorem Mixed.of_beq {k l : RequestKey} (mixed : Mixed s k key) (same : (k == l) = true) :
    Mixed s l key := by
  obtain ⟨n, networks, p, member, indirect⟩ := mixed
  obtain ⟨_, _, network⟩ := RequestKey.beq_iff.mp same
  rcases networks with ⟨free, bound⟩ | ⟨bound, free⟩
  · rw [free] at network
    have free' : l.network = none := Option.map_eq_none_iff.mp network.symm
    exact ⟨n, .inl ⟨free', bound⟩, p, member, indirect⟩
  · rw [bound] at network
    obtain ⟨n', bound', sameKey⟩ := Option.map_eq_some_iff.mp network.symm
    have keys : (some n).map Network.key = (some n').map Network.key :=
      congrArg some sameKey.symm
    have lists : s.registry.onNetwork n .assetPairs = s.registry.onNetwork n' .assetPairs :=
      Discovery.considered_congr keys
    exact ⟨n', .inr ⟨bound', free⟩, p, lists ▸ member, indirect⟩

/-- Two requests find one second leg for the same pair on the same network, unless they are
mixed. -/
theorem second_eq_or_mixed {k : RequestKey} {a b first second : Leg}
    (found : answers.found s key = some (.converted first second))
    (found' : answers.found s k = some (.converted a b)) (pair : b.pair = second.pair)
    (network : (b.network == second.network) = true) : b = second ∨ Mixed s key k := by
  have one := (Discovery.legs_of_found found).2
  have two := (Discovery.legs_of_found found').2
  -- Where the networks of the requests are alike, so are the candidates.
  have alike : key.network.map Network.key = k.network.map Network.key → b = second :=
    fun same => Discovery.findLeg_congr same.symm two one pair
  by_cases mixed : Mixed s key k
  · exact .inr mixed
  have direct : ∀ n, (key.network = none ∧ k.network = some n ∨
      key.network = some n ∧ k.network = none) →
        ∀ p ∈ s.registry.onNetwork n .assetPairs, p.direct = true := by
    intro n networks p member
    cases direct : p.direct with
    | true => rfl
    | false => exact absurd ⟨n, networks, p, member, direct⟩ mixed
  refine .inl ?_
  cases ours : key.network with
  | none =>
    cases theirs : k.network with
    | none => exact alike (by rw [ours, theirs])
    | some n =>
      rw [ours] at one
      rw [theirs] at two
      exact (Discovery.findLeg_anywhere (direct n (.inl ⟨ours, theirs⟩)) one two pair.symm
        (BEq.symm network)).symm
  | some n =>
    cases theirs : k.network with
    | none =>
      rw [ours] at one
      rw [theirs] at two
      exact Discovery.findLeg_anywhere (direct n (.inr ⟨ours, theirs⟩)) two one pair network
    | some n' =>
      rw [ours] at one
      rw [theirs] at two
      have equal : (n == n') = true :=
        BEq.trans (BEq.symm (Discovery.network_findLeg one))
          (BEq.trans (BEq.symm network) (Discovery.network_findLeg two))
      have keys : (some n).map Network.key = (some n').map Network.key :=
        congrArg some (Network.beq_iff.mp equal)
      exact alike (by rw [ours, theirs, keys])

theorem Lends.mono {second other : Leg} (lends : Lends answers s moves key second other)
    (later : List (Move ω)) : Lends answers s (moves ++ later) key second other := by
  cases lends with
  | own => exact .own
  | other whole met mixed found pair network =>
    exact .other whole (met.mono later) mixed found pair network

theorem Comes.mono {r : PriceResult} (comes : Comes answers s moves key r)
    (later : List (Move ω)) : Comes answers s (moves ++ later) key r := by
  cases comes with
  | own => exact .own
  | lent found lends => exact .lent found (lends.mono later)

theorem Comes.of_beq {l : RequestKey} {r : PriceResult} (comes : Comes answers s moves key r)
    (same : (key == l) = true) : Comes answers s moves l r := by
  have pair := (RequestKey.beq_iff.mp same).1
  have found := answers.found_congr s same
  cases comes with
  | own =>
    rw [Answers.alone, pair, found]
    exact .own
  | lent finds lends =>
    rw [pair]
    refine .lent (found ▸ finds) ?_
    cases lends with
    | own => exact .own
    | other whole met mixed found' pair' network =>
      exact .other whole (met.of_beq same) (mixed.of_beq same) found' pair' network

end PriceDesk
