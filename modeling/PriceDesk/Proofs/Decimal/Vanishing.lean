import PriceDesk.Decimal.Arithmetic
import PriceDesk.Proofs.Decimal.Reciprocal

namespace PriceDesk.Decimal

theorem isZero_iff {d : Decimal} : d.isZero = true ↔ d.mantissa = 0 := beq_iff_eq

theorem fitProduct_eq (negative : Bool) {m s : Nat} (small : m < tenTo 58) (places : s ≤ 56) :
    ∃ k, s ≤ 28 + k ∧ roundHalfEven m (tenTo k) < twoTo 96 ∧
      (∀ j < k, s ≤ 28 + j → twoTo 96 ≤ roundHalfEven m (tenTo j)) ∧
      fitProduct negative m s =
        if s < k then none else ofParts? negative (roundHalfEven m (tenTo k)) (s - k) := by
  obtain ⟨k, first⟩ : ∃ k, (List.range 64).find?
      (fun k => s ≤ 28 + k && m / tenTo k < twoTo 96) = some k := by
    apply Option.isSome_iff_exists.mp
    rw [List.find?_isSome]
    refine ⟨58, by decide, ?_⟩
    simp only [Nat.div_eq_of_lt small, Bool.and_eq_true, decide_eq_true_eq]
    exact ⟨by omega, by decide⟩
  obtain ⟨fits, _, sooner⟩ := List.find?_range_eq_some.mp first
  simp only [Bool.and_eq_true, decide_eq_true_eq] at fits
  -- Whatever takes off fewer digits leaves too many.
  have fewer : ∀ j < k, s ≤ 28 + j → twoTo 96 ≤ roundHalfEven m (tenTo j) := by
    intro j less cut
    have large := sooner j less
    simp only [cut, decide_true, Bool.true_and, Bool.not_eq_true', decide_eq_false_iff_not,
      Nat.not_lt] at large
    exact Nat.le_trans large (le_roundHalfEven _ _)
  by_cases rounded : roundHalfEven m (tenTo k) < twoTo 96
  · refine ⟨k, fits.1, rounded, fewer, ?_⟩
    simp only [fitProduct, first, bind, Option.bind, if_pos rounded]
  · refine ⟨k + 1, by omega, ?_, ?_, ?_⟩
    · have tenth : m / tenTo (k + 1) = m / tenTo k / 10 := by
        rw [Nat.div_div_eq_div_mul, Nat.mul_comm, ← tenTo_succ]
      have above := roundHalfEven_le m (tenTo (k + 1))
      have large : 2 < twoTo 96 := by decide
      omega
    · intro j less cut
      rcases Nat.lt_or_eq_of_le (Nat.le_of_lt_succ less) with less | rfl
      · exact fewer j less cut
      · exact Nat.le_of_not_lt rounded
    · simp only [fitProduct, first, bind, Option.bind, if_neg rounded]

structure Multiplies (negative : Bool) (m s : Nat) (result : Option Decimal) : Prop where
  none_iff : result = none ↔ twoTo 96 ≤ roundHalfEven m (tenTo s)
  sign : ∀ r, result = some r → r.mantissa ≠ 0 → r.negative = negative
  zero_iff : ∀ r, result = some r → (r.mantissa = 0 ↔ 2 * m ≤ tenTo (s - 28))

theorem Multiplies.some {negative : Bool} {m s : Nat} {r : Decimal}
    (fits : roundHalfEven m (tenTo s) < twoTo 96) (sign : r.mantissa ≠ 0 → r.negative = negative)
    (zero_iff : r.mantissa = 0 ↔ 2 * m ≤ tenTo (s - 28)) : Multiplies negative m s (some r) where
  none_iff := ⟨nofun, fun large => absurd fits (Nat.not_lt_of_le large)⟩
  sign := by
    intro r' same
    cases same
    exact sign
  zero_iff := by
    intro r' same
    cases same
    exact zero_iff

theorem roundHalfEven_one (m : Nat) : roundHalfEven m (tenTo 0) = m := by
  simp [roundHalfEven, tenTo, Nat.mod_one]

theorem multiplies_ofParts? (negative : Bool) {m s : Nat} (positive : 0 < m) (fits : m < twoTo 96)
    (places : s ≤ 28) : Multiplies negative m s (ofParts? negative m s) := by
  rw [ofParts?_of_fits fits places]
  refine .some ?_ (fun _ => rfl) ?_
  · have whole : roundHalfEven m (tenTo 0) < twoTo 96 := by rwa [roundHalfEven_one]
    exact fits_of_le whole (Nat.zero_le s)
  · have one : tenTo (s - 28) = 1 := by rw [Nat.sub_eq_zero_of_le places]; rfl
    rw [one]
    show m = 0 ↔ _
    omega

theorem multiplies_cut (negative : Bool) {m s : Nat} (small : m < twoTo 64) :
    Multiplies negative m s
      ((ofParts? negative (roundHalfEven m (tenTo (s - 28))) 28).map unsignZero) := by
  have words : twoTo 64 < twoTo 96 := by decide
  have whole : roundHalfEven m (tenTo 0) < twoTo 96 := by
    rw [roundHalfEven_one]
    omega
  rw [ofParts?_of_fits (fits_of_le whole (Nat.zero_le _)) (Nat.le_refl 28)]
  refine .some (fits_of_le whole (Nat.zero_le s)) ?_ ?_
  · intro nonzero
    rw [mantissa_unsignZero] at nonzero
    rw [unsignZero, if_neg (by simpa [isZero_iff] using nonzero)]
  · rw [mantissa_unsignZero]
    exact roundHalfEven_eq_zero_iff (tenTo_pos _)

theorem multiplies_zero (negative : Bool) {m s : Nat} (small : m < twoTo 64) (long : 47 < s) :
    Multiplies negative m s (some zero) := by
  have words : twoTo 64 < twoTo 96 := by decide
  have whole : roundHalfEven m (tenTo 0) < twoTo 96 := by
    rw [roundHalfEven_one]
    omega
  refine .some (fits_of_le whole (Nat.zero_le s)) (fun nonzero => absurd rfl nonzero) ?_
  have places : tenTo 20 ≤ tenTo (s - 28) := tenTo_le (by omega)
  have half : 2 * twoTo 64 ≤ tenTo 20 := by decide
  exact iff_of_true rfl (by omega)

theorem multiplies_fitProduct (negative : Bool) {m s : Nat} (small : m < tenTo 58)
    (places : s ≤ 56) : Multiplies negative m s (fitProduct negative m s) := by
  obtain ⟨k, cut, fits, fewer, product⟩ := fitProduct_eq negative small places
  rw [product]
  by_cases whole : s < k
  · rw [if_pos whole]
    exact ⟨iff_of_true rfl (fewer s whole (by omega)), nofun, nofun⟩
  · rw [if_neg whole, ofParts?_of_fits fits (by omega)]
    refine .some (fits_of_le fits (by omega)) (fun _ => rfl) ?_
    show roundHalfEven m (tenTo k) = 0 ↔ _
    rw [roundHalfEven_eq_zero_iff (tenTo_pos k)]
    rcases Nat.lt_or_eq_of_le (show s - 28 ≤ k by omega) with more | same
    · -- More digits go than there are places too many: then what is left is large.
      obtain ⟨j, rfl⟩ : ∃ j, k = j + 1 := ⟨k - 1, by omega⟩
      have large := Nat.le_trans (fewer j (Nat.lt_succ_self j) (by omega)) (roundHalfEven_le m _)
      have many : tenTo j * (m / tenTo j) ≤ m := Nat.mul_div_le m _
      have ten : tenTo j * 10 ≤ tenTo j * (m / tenTo j) := by
        apply Nat.mul_le_mul_left
        have bits : 11 ≤ twoTo 96 := by decide
        omega
      have places' : tenTo (s - 28) ≤ tenTo j := tenTo_le (by omega)
      have positive := tenTo_pos j
      rw [tenTo_succ]
      omega
    · rw [same]

/-- A product of decimals has no result exactly where its whole part outgrows 96 bits, and is zero
exactly where it is at most half a unit of the last place. -/
theorem mul?_multiplies (a b : Decimal) : Multiplies (a.negative != b.negative)
    (a.mantissa * b.mantissa) (a.scale + b.scale) (a.mul? b) := by
  have aFits := a.mantissa_lt
  have bFits := b.mantissa_lt
  have aPlaces := a.scale_le
  have bPlaces := b.scale_le
  unfold mul?
  split
  · rename_i zeroFactor
    have nothing : a.mantissa * b.mantissa = 0 := by
      simpa [isZero, Nat.mul_eq_zero] using zeroFactor
    rw [nothing]
    refine .some ?_ (fun nonzero => absurd rfl nonzero) (iff_of_true rfl (Nat.zero_le _))
    rw [(roundHalfEven_eq_zero_iff (tenTo_pos _)).mpr (Nat.zero_le _)]
    decide
  · rename_i factors
    have positive : 0 < a.mantissa * b.mantissa := by
      simp only [isZero, Bool.or_eq_true, beq_iff_eq, not_or] at factors
      exact Nat.mul_pos (Nat.pos_of_ne_zero factors.1) (Nat.pos_of_ne_zero factors.2)
    dsimp only
    split
    · rename_i words
      simp only [Bool.and_eq_true, decide_eq_true_eq] at words
      have small : a.mantissa * b.mantissa < twoTo 64 :=
        Nat.lt_of_lt_of_le (Nat.mul_lt_mul'' words.1 words.2) (by decide)
      split
      · rename_i long
        exact multiplies_zero _ small long
      · split
        · exact multiplies_cut _ small
        · rename_i short
          have bits : twoTo 64 < twoTo 96 := by decide
          exact multiplies_ofParts? _ positive (by omega) (by omega)
    · split
      · have bound : a.mantissa * b.mantissa < twoTo 96 * twoTo 96 := Nat.mul_lt_mul'' aFits bFits
        exact multiplies_fitProduct _ (Nat.lt_of_lt_of_le bound (by decide)) (by omega)
      · rename_i fits
        simp only [Bool.or_eq_true, decide_eq_true_eq, not_or] at fits
        exact multiplies_ofParts? _ positive (by omega) (by omega)

end PriceDesk.Decimal
