import PriceDesk.Provider.Registry

namespace PriceDesk

variable {ω : Type}

namespace Provider

variable {p q : Provider ω}

/-- Whether the first provider stands before the second: by priority, then by title, then by id. -/
def Precedes (p q : Provider ω) : Prop :=
  p.priority < q.priority ∨
    p.priority = q.priority ∧ (p.title < q.title ∨ p.title = q.title ∧ p.id < q.id)

def SameRank (p q : Provider ω) : Prop :=
  p.priority = q.priority ∧ p.title = q.title ∧ p.id = q.id

instance : Decidable (p.SameRank q) :=
  inferInstanceAs (Decidable (p.priority = q.priority ∧ p.title = q.title ∧ p.id = q.id))

theorem SameRank.symm (same : p.SameRank q) : q.SameRank p :=
  ⟨same.1.symm, same.2.1.symm, same.2.2.symm⟩

theorem NoWorse.precedes (better : p.NoWorse q) (differ : p.id ≠ q.id) : p.Precedes q := by
  rcases better with lower | ⟨samePriority, lesser | ⟨sameTitle, le⟩⟩
  · exact .inl lower
  · exact .inr ⟨samePriority, .inl lesser⟩
  · rcases Std.lt_trichotomy p.id q.id with less | same | greater
    · exact .inr ⟨samePriority, .inr ⟨sameTitle, less⟩⟩
    · exact absurd same differ
    · exact absurd greater (String.not_lt.mpr le)

theorem NoWorse.priority_le (better : p.NoWorse q) : p.priority ≤ q.priority := by
  rcases better with lower | ⟨same, _⟩
  · exact Int.le_of_lt lower
  · exact Int.le_of_eq same

theorem NoWorse.lex (better : p.NoWorse q) :
    p.priority < q.priority ∨ p.priority = q.priority ∧ p.title ≤ q.title := by
  rcases better with lower | ⟨samePriority, lesser | ⟨sameTitle, _⟩⟩
  · exact .inl lower
  · exact .inr ⟨samePriority, String.not_lt.mp (String.lt_asymm lesser)⟩
  · exact .inr ⟨samePriority, sameTitle ▸ String.le_refl _⟩

theorem NoWorse.sameRank (one : p.NoWorse q) (two : q.NoWorse p) : p.SameRank q := by
  have sameId := one.id_eq two
  rcases one.lex with lower | ⟨samePriority, le⟩
  · exact absurd (two.priority_le) (Int.not_le.mpr lower)
  rcases two.lex with lower | ⟨_, ge⟩
  · exact absurd lower (samePriority ▸ Int.lt_irrefl _)
  exact ⟨samePriority, String.le_antisymm le ge, sameId⟩

theorem Precedes.noWorse (before : p.Precedes q) : p.NoWorse q := by
  rcases before with lower | ⟨samePriority, lesser | ⟨sameTitle, lesser⟩⟩
  · exact .inl lower
  · exact .inr ⟨samePriority, .inl lesser⟩
  · exact .inr ⟨samePriority, .inr ⟨sameTitle, String.not_lt.mp (String.lt_asymm lesser)⟩⟩

theorem Precedes.not_sameRank (before : p.Precedes q) : ¬ p.SameRank q := by
  rintro ⟨samePriority, sameTitle, sameId⟩
  rcases before with lower | ⟨_, lesser | ⟨_, lesser⟩⟩
  · exact Int.lt_irrefl _ (samePriority ▸ lower)
  · exact String.lt_irrefl _ (sameTitle ▸ lesser)
  · exact String.lt_irrefl _ (sameId ▸ lesser)

theorem Precedes.not_noWorse (before : p.Precedes q) : ¬ q.NoWorse p := fun better =>
  before.not_sameRank (before.noWorse.sameRank better)

end Provider

namespace Registry

structure Ranks (r : Registry ω) (ps : List (Provider ω)) : Prop where
  drawn : ∀ q ∈ r.providers, q ∈ ps ∧ q.disabled = false
  ids : ∀ id, id ∈ r.providers.map (·.id) ↔ ∃ p ∈ ps, p.disabled = false ∧ p.id = id
  distinct : (r.providers.map (·.id)).Nodup
  /-- No enabled provider with the id of one that is kept has a lower priority, or the same priority
  and a lesser title. -/
  least : ∀ q ∈ r.providers, ∀ p ∈ ps, p.disabled = false → p.id = q.id →
    q.priority < p.priority ∨ q.priority = p.priority ∧ q.title ≤ p.title
  ascending : r.providers.Pairwise Provider.Precedes

/-- The answers of a registry are selections from its providers, in their order. -/
structure Selects (r : Registry ω) : Prop where
  indexed : ∀ c, (r.index.positions c).map (r.providers[·]?) = (r.having c).map some
  having : ∀ c, r.having c = r.providers.filter (·.has c)
  direct : ∀ c, r.direct c = r.providers.filter fun p => p.has c && p.direct
  onNetwork : ∀ n c, r.onNetwork n c = r.providers.filter fun p => p.has c && (p.network == n)
  preferred : ∀ n c, r.preferred? n c = r.providers.find? fun p => p.has c && (p.network == n)
  networks : ∃ best : List (Provider ω), best.Sublist r.providers ∧
    r.networks = best.map (·.network) ∧
    ∀ p ∈ r.providers, p ∈ best ↔
      ∀ q ∈ r.providers, (q.network == p.network) = true → p.NoWorse q
  networksDistinct : r.networks.Pairwise fun m n => (n == m) = false
  networksAll : ∀ p ∈ r.providers, ∃ n ∈ r.networks, (n == p.network) = true

variable {r : Registry ω} {ps qs : List (Provider ω)}

theorem ranks_of (ps : List (Provider ω)) : (of ps).Ranks ps where
  drawn q kept := mem_sorted.mp (firstBy_sublist.subset kept)
  ids id := by
    rw [List.mem_map]
    constructor
    · rintro ⟨q, kept, rfl⟩
      obtain ⟨member, enabled⟩ := mem_sorted.mp (firstBy_sublist.subset kept)
      exact ⟨q, member, enabled, rfl⟩
    · rintro ⟨p, member, enabled, rfl⟩
      have best : ∃ q ∈ (of ps).providers, (q.id == p.id) = true :=
        exists_firstBy (mem_sorted.mpr ⟨member, enabled⟩)
      obtain ⟨q, kept, same⟩ := best
      exact ⟨q, kept, beq_iff_eq.mp same⟩
  distinct := List.pairwise_map.mpr (of ps).distinct
  least q kept p member enabled same := by
    have best : q.NoWorse p := firstBy_least Provider.NoWorse.refl (pairwise_sorted ps) kept
      (mem_sorted.mpr ⟨member, enabled⟩) (beq_iff_eq.mpr same)
    exact best.lex
  ascending := by
    refine ((of ps).ordered.and (of ps).distinct).imp ?_
    exact fun both => both.1.precedes both.2

theorem exists_best {p : Provider ω} (member : p ∈ r.providers) :
    ∃ q ∈ firstBy Provider.network r.providers, (q.network == p.network) = true :=
  exists_firstBy member

theorem mem_firstBy_network {p : Provider ω} (member : p ∈ r.providers) :
    p ∈ firstBy (·.network) r.providers ↔
      ∀ q ∈ r.providers, (q.network == p.network) = true → p.NoWorse q := by
  constructor
  · intro kept q there same
    exact firstBy_least Provider.NoWorse.refl r.ordered kept there same
  · intro best
    obtain ⟨q, kept, same⟩ := exists_best member
    have there := firstBy_sublist.subset kept
    have least : q.NoWorse p :=
      firstBy_least Provider.NoWorse.refl r.ordered kept member (BEq.symm same)
    have equal := eq_of_id there member (least.id_eq (best q there same))
    exact equal ▸ kept

theorem networks_eq (r : Registry ω) :
    r.networks = (firstBy (·.network) r.providers).map (·.network) :=
  firstBy_map _ _

theorem selects (r : Registry ω) : r.Selects where
  indexed c := by
    rw [having_eq]
    exact CapabilityIndex.map_positions_of r.providers c
  having := r.having_eq
  direct c := by
    rw [direct, having_eq, List.filter_filter]
    simp only [Bool.and_comm]
  onNetwork n c := by
    rw [onNetwork, having_eq, List.filter_filter]
    simp only [Bool.and_comm]
  preferred n c := by
    rw [preferred?, having_eq, List.find?_filter]
    simp
  networks :=
    ⟨firstBy (·.network) r.providers, firstBy_sublist, r.networks_eq,
      fun _ member => mem_firstBy_network member⟩
  networksDistinct := firstBy_distinct.imp fun differs => by simpa [bne] using differs
  networksAll p member := by
    obtain ⟨q, kept, same⟩ := exists_best member
    rw [networks_eq]
    exact ⟨q.network, List.mem_map_of_mem kept, same⟩

theorem sorted_eq_of_perm (perm : qs.Perm ps)
    (untied : (ps.filter (!·.disabled)).Pairwise fun p q => ¬ p.SameRank q) :
    sorted qs = sorted ps := by
  have enabled : (qs.filter (!·.disabled)).Perm (ps.filter (!·.disabled)) := perm.filter _
  have single : ∀ p ∈ ps.filter (!·.disabled), ∀ q ∈ ps.filter (!·.disabled),
      p.SameRank q → p = q := fun p one q two =>
    List.Pairwise.forall_of_forall_of_flip (R := fun p q => p.SameRank q → p = q)
      (fun _ _ _ => rfl) (untied.imp fun differ same => absurd same differ)
      (untied.imp fun differ same => absurd same.symm differ) one two
  refine List.Perm.eq_of_pairwise ?_ (pairwise_sorted qs) (pairwise_sorted ps) ?_
  · intro p q one two better worse
    have one' := enabled.subset (List.mem_mergeSort.mp one)
    have two' := List.mem_mergeSort.mp two
    exact single p one' q two' (better.sameRank worse)
  · exact (List.mergeSort_perm _ _).trans (enabled.trans (List.mergeSort_perm _ _).symm)

/-- A registry keeps the best enabled provider for each id, in strictly ascending order, answers by
selections from this list, and is the same however the providers were registered, unless two of the
enabled ones have the same rank. -/
theorem registry_keeps_best (ps : List (Provider ω)) :
    (of ps).Ranks ps ∧ (of ps).Selects ∧
      ∀ qs, qs.Perm ps → ((ps.filter (!·.disabled)).Pairwise fun p q => ¬ p.SameRank q) →
        of qs = of ps := by
  refine ⟨ranks_of ps, (of ps).selects, fun qs perm untied => eq_of_providers ?_⟩
  exact congrArg (firstBy Provider.id) (sorted_eq_of_perm perm untied)

def ranked (id title : String) (priority : Int) (disabled : Bool) : Provider Unit :=
  { id, network := ⟨title⟩, title, priority, disabled }

/-- Two providers with one id, a tie that is broken by the id, and a tie between two that are
disabled. -/
def entrants : List (Provider Unit) :=
  [ranked "kraken" "Kraken" 20 false, ranked "dead" "Dead" 1 true, ranked "proxy" "Kraken" 10 false,
    ranked "dead" "Dead" 1 true, ranked "kraken" "Kraken" 10 false]

theorem entrants_register_in_any_order :
    entrants.reverse.Perm entrants ∧
      ((entrants.filter (!·.disabled)).Pairwise fun p q => ¬ p.SameRank q) ∧
      of entrants.reverse = of entrants := by
  have perm : entrants.reverse.Perm entrants := List.reverse_perm _
  have untied : (entrants.filter (!·.disabled)).Pairwise fun p q => ¬ p.SameRank q := by decide
  exact ⟨perm, untied, (registry_keeps_best entrants).2.2 _ perm untied⟩

end Registry

end PriceDesk
