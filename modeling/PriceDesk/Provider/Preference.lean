import PriceDesk.Provider.Basic

namespace PriceDesk

variable {ω : Type}

theorem isLE_then_compareOfLessAndEq {α : Type} [LT α] [LE α] [DecidableLT α] [DecidableLE α]
    [DecidableEq α] (refl : ∀ a : α, a ≤ a) (not_le : ∀ {a b : α}, ¬ a ≤ b ↔ b < a) {a b : α}
    {rest : Ordering} :
    ((compareOfLessAndEq a b).then rest).isLE = true ↔ a < b ∨ a = b ∧ rest.isLE = true := by
  rw [Ordering.isLE_then_iff_or, compareOfLessAndEq_eq_lt, compareOfLessAndEq_eq_eq refl not_le]

namespace Provider

def NoWorse (p q : Provider ω) : Prop :=
  p.priority < q.priority ∨
    p.priority = q.priority ∧ (p.title < q.title ∨ p.title = q.title ∧ p.id ≤ q.id)

theorem compare_isLE_iff {p q : Provider ω} : (p.compare q).isLE = true ↔ p.NoWorse q := by
  rw [compare, isLE_then_compareOfLessAndEq Int.le_refl Int.not_le,
    isLE_then_compareOfLessAndEq String.le_refl String.not_le,
    isLE_compareOfLessAndEq String.le_antisymm String.not_le String.le_total, NoWorse]

namespace NoWorse

variable {p q r : Provider ω}

theorem refl (p : Provider ω) : p.NoWorse p := .inr ⟨rfl, .inr ⟨rfl, String.le_refl _⟩⟩

theorem trans (one : p.NoWorse q) (two : q.NoWorse r) : p.NoWorse r := by
  rcases one with lower | ⟨samePriority, one⟩
  · rcases two with lower' | ⟨samePriority', _⟩
    · exact .inl (Int.lt_trans lower lower')
    · exact .inl (samePriority' ▸ lower)
  rcases two with lower' | ⟨samePriority', two⟩
  · exact .inl (samePriority ▸ lower')
  refine .inr ⟨samePriority.trans samePriority', ?_⟩
  rcases one with lesser | ⟨sameTitle, one⟩
  · rcases two with lesser' | ⟨sameTitle', _⟩
    · exact .inl (String.lt_trans lesser lesser')
    · exact .inl (sameTitle' ▸ lesser)
  rcases two with lesser' | ⟨sameTitle', two⟩
  · exact .inl (sameTitle ▸ lesser')
  · exact .inr ⟨sameTitle.trans sameTitle', String.le_trans one two⟩

theorem total (p q : Provider ω) : p.NoWorse q ∨ q.NoWorse p := by
  rcases Int.lt_trichotomy p.priority q.priority with lower | samePriority | higher
  · exact .inl (.inl lower)
  · rcases Std.lt_trichotomy p.title q.title with lesser | sameTitle | greater
    · exact .inl (.inr ⟨samePriority, .inl lesser⟩)
    · rcases String.le_total p.id q.id with le | ge
      · exact .inl (.inr ⟨samePriority, .inr ⟨sameTitle, le⟩⟩)
      · exact .inr (.inr ⟨samePriority.symm, .inr ⟨sameTitle.symm, ge⟩⟩)
    · exact .inr (.inr ⟨samePriority.symm, .inl greater⟩)
  · exact .inr (.inl higher)

theorem id_eq (one : p.NoWorse q) (two : q.NoWorse p) : p.id = q.id := by
  rcases one with lower | ⟨samePriority, lesser | ⟨sameTitle, le⟩⟩
  · rcases two with lower' | ⟨samePriority', _⟩
    · exact absurd lower' (Int.lt_asymm lower)
    · exact absurd (samePriority' ▸ lower) (Int.lt_irrefl _)
  · rcases two with lower' | ⟨_, lesser' | ⟨sameTitle', _⟩⟩
    · exact absurd (samePriority ▸ lower') (Int.lt_irrefl _)
    · exact absurd lesser' (String.lt_asymm lesser)
    · exact absurd (sameTitle' ▸ lesser) (String.lt_irrefl _)
  · rcases two with lower' | ⟨_, lesser' | ⟨_, ge⟩⟩
    · exact absurd (samePriority ▸ lower') (Int.lt_irrefl _)
    · exact absurd (sameTitle ▸ lesser') (String.lt_irrefl _)
    · exact String.le_antisymm le ge

end NoWorse

theorem compare_isLE_trans (p q r : Provider ω) (one : (p.compare q).isLE = true)
    (two : (q.compare r).isLE = true) : (p.compare r).isLE = true :=
  compare_isLE_iff.mpr ((compare_isLE_iff.mp one).trans (compare_isLE_iff.mp two))

theorem compare_isLE_total (p q : Provider ω) :
    ((p.compare q).isLE || (q.compare p).isLE) = true := by
  rw [Bool.or_eq_true]
  exact (NoWorse.total p q).imp compare_isLE_iff.mpr compare_isLE_iff.mpr

end Provider

end PriceDesk
