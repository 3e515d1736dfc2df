import Mathlib.Tactic.Ring
import PriceDesk.Decimal.Basic

namespace PriceDesk

theorem tenTo_pos (n : Nat) : 0 < tenTo n := Nat.pow_pos (by decide)

theorem tenTo_add (m n : Nat) : tenTo (m + n) = tenTo m * tenTo n := Nat.pow_add 10 m n

theorem tenTo_succ (n : Nat) : tenTo (n + 1) = 10 * tenTo n := by
  rw [tenTo_add, Nat.mul_comm]
  rfl

theorem tenTo_le {m n : Nat} (le : m ≤ n) : tenTo m ≤ tenTo n :=
  Nat.pow_le_pow_right (by decide) le

theorem lt_of_twoTo_le_tenTo {n : Nat} (le : twoTo 96 ≤ tenTo n + 1) : 28 < n := by
  apply Nat.lt_of_not_le
  intro few
  have small := tenTo_le few
  have gap : tenTo 28 + 1 < twoTo 96 := by decide
  omega

namespace Decimal

variable {n den k : Nat}

/-- A whole number is nearest to a quotient, and of two such numbers the even one. -/
structure Nearest (n den k : Nat) : Prop where
  above : 2 * n ≤ 2 * (k * den) + den
  below : 2 * (k * den) ≤ 2 * n + den
  even : 2 * n = 2 * (k * den) + den ∨ 2 * (k * den) = 2 * n + den → k % 2 = 0

theorem roundHalfEven_nearest (positive : 0 < den) (n : Nat) :
    Nearest n den (roundHalfEven n den) := by
  have parts := Nat.div_add_mod n den
  have rest := Nat.mod_lt n positive
  rw [Nat.mul_comm] at parts
  have next : (n / den + 1) * den = n / den * den + den := Nat.succ_mul _ _
  unfold roundHalfEven
  dsimp only
  by_cases down : 2 * (n % den) < den
  · rw [if_pos down]
    exact ⟨by omega, by omega, by omega⟩
  rw [if_neg down]
  by_cases up : den < 2 * (n % den)
  · rw [if_pos up]
    exact ⟨by omega, by omega, by omega⟩
  rw [if_neg up]
  by_cases even : n / den % 2 = 0
  · rw [if_pos (beq_iff_eq.mpr even)]
    exact ⟨by omega, by omega, fun _ => even⟩
  · rw [if_neg (by rwa [beq_iff_eq])]
    exact ⟨by omega, by omega, fun _ => by omega⟩

theorem Nearest.le {n' den' k' : Nat} (near : Nearest n den k) (near' : Nearest n' den' k')
    (positive : 0 < den) (positive' : 0 < den') (less : n * den' ≤ n' * den) : k ≤ k' := by
  by_contra more
  obtain ⟨j, rfl⟩ : ∃ j, k = k' + 1 + j := ⟨k - (k' + 1), by omega⟩
  -- Over the common denominator, `k` is at most half above the one and `k'` half below the other.
  have common := Nat.mul_pos positive positive'
  have below := Nat.mul_le_mul_right den' near.below
  have above := Nat.mul_le_mul_right den near'.above
  have left : (2 * ((k' + 1 + j) * den)) * den' = 2 * (k' * (den * den')) + 2 * (den * den') +
      2 * (j * (den * den')) := by ring
  have middle : (2 * n + den) * den' = 2 * (n * den') + den * den' := by ring
  have right : (2 * (k' * den') + den') * den = 2 * (k' * (den * den')) + den * den' := by ring
  have last : 2 * n' * den = 2 * (n' * den) := by ring
  rw [left, middle] at below
  rw [right, last] at above
  have one : j = 0 := by
    by_contra far
    have again := Nat.le_mul_of_pos_left (den * den') (Nat.pos_of_ne_zero far)
    omega
  subst one
  -- So both are halfway, and their neighbours cannot both be even.
  have half : 2 * ((k' + 1 + 0) * den) = 2 * n + den := by
    apply Nat.eq_of_mul_eq_mul_right positive'
    rw [left, middle]
    omega
  have half' : 2 * n' = 2 * (k' * den') + den' := by
    apply Nat.eq_of_mul_eq_mul_right positive
    rw [right, last]
    omega
  have even := near.even (.inr half)
  have even' := near'.even (.inl half')
  omega

theorem Nearest.eq_roundHalfEven (near : Nearest n den k) (positive : 0 < den) :
    k = roundHalfEven n den := by
  have rounded := roundHalfEven_nearest positive n
  exact Nat.le_antisymm (near.le rounded positive positive (Nat.le_refl _))
    (rounded.le near positive positive (Nat.le_refl _))

theorem roundHalfEven_mono {n' den' : Nat} (positive : 0 < den) (positive' : 0 < den')
    (less : n * den' ≤ n' * den) : roundHalfEven n den ≤ roundHalfEven n' den' :=
  (roundHalfEven_nearest positive n).le (roundHalfEven_nearest positive' n') positive positive' less

theorem roundHalfEven_mul (positive : 0 < den) (k : Nat) : roundHalfEven (k * den) den = k :=
  (Nearest.eq_roundHalfEven ⟨by omega, by omega, by omega⟩ positive).symm

theorem roundHalfEven_cases (n den : Nat) :
    roundHalfEven n den = n / den ∨ roundHalfEven n den = n / den + 1 := by
  unfold roundHalfEven
  dsimp only
  split
  · exact .inl rfl
  · split
    · exact .inr rfl
    · split
      · exact .inl rfl
      · exact .inr rfl

theorem roundHalfEven_le (n den : Nat) : roundHalfEven n den ≤ n / den + 1 := by
  have cases := roundHalfEven_cases n den
  omega

theorem le_roundHalfEven (n den : Nat) : n / den ≤ roundHalfEven n den := by
  have cases := roundHalfEven_cases n den
  omega

theorem roundHalfEven_eq_zero_iff (positive : 0 < den) :
    roundHalfEven n den = 0 ↔ 2 * n ≤ den := by
  by_cases small : n < den
  · simp only [roundHalfEven, Nat.div_eq_of_lt small, Nat.mod_eq_of_lt small]
    split
    · omega
    · split
      · omega
      · simp
        omega
  · have one : 1 ≤ n / den := (Nat.one_le_div_iff positive).mpr (by omega)
    have rounded := le_roundHalfEven n den
    omega

theorem fits_of_le {m k s : Nat} (fits : roundHalfEven m (tenTo k) < twoTo 96) (le : k ≤ s) :
    roundHalfEven m (tenTo s) < twoTo 96 :=
  Nat.lt_of_le_of_lt
    (roundHalfEven_mono (tenTo_pos s) (tenTo_pos k) (Nat.mul_le_mul_left m (tenTo_le le))) fits

theorem roundHalfEven_tenth {q r : Nat} (value : 10 * n = q * den + r) (rest : r < den) :
    roundHalfEven n den =
      if 5 < q % 10 ∨ q % 10 = 5 ∧ (r ≠ 0 ∨ q / 10 % 2 = 1) then q / 10 + 1 else q / 10 := by
  have positive : 0 < den := Nat.lt_of_le_of_lt (Nat.zero_le r) rest
  have digits := Nat.div_add_mod q 10
  have digit := Nat.mod_lt q (show 0 < 10 by decide)
  generalize q / 10 = a at *
  generalize q % 10 = b at *
  subst digits
  have split : (10 * a + b) * den = 10 * (a * den) + b * den := by ring
  rw [split] at value
  have next : (a + 1) * den = a * den + den := Nat.succ_mul _ _
  symm
  by_cases up : 5 < b ∨ b = 5 ∧ (r ≠ 0 ∨ a % 2 = 1)
  · rw [if_pos up]
    have least : 5 * den ≤ b * den := Nat.mul_le_mul_right den (by omega)
    have most : b * den ≤ 9 * den := Nat.mul_le_mul_right den (by omega)
    refine Nearest.eq_roundHalfEven ⟨by omega, by omega, fun half => ?_⟩ positive
    have five : b = 5 := by
      by_contra other
      have six : 6 * den ≤ b * den := Nat.mul_le_mul_right den (by omega)
      omega
    subst five
    omega
  · rw [if_neg up]
    have most : b * den ≤ 5 * den := Nat.mul_le_mul_right den (by omega)
    have last : b = 5 → r = 0 := by omega
    have four : b ≠ 5 → b * den ≤ 4 * den := fun other => Nat.mul_le_mul_right den (by omega)
    refine Nearest.eq_roundHalfEven ⟨by omega, by omega, fun half => ?_⟩ positive
    have five : b = 5 := by
      by_contra other
      have less := four other
      omega
    omega

/-- With a digit less, a number that has no room in 96 bits still fills them but for that digit. -/
theorem twoTo_le_ten_mul (positive : 0 < den) (large : twoTo 96 ≤ roundHalfEven (10 * n) den) :
    twoTo 96 ≤ 10 * roundHalfEven n den := by
  by_contra small
  have most : roundHalfEven n den ≤ (twoTo 96 - 1) / 10 := by omega
  have near := (roundHalfEven_nearest positive n).above
  have times := Nat.mul_le_mul_right den most
  have bound : 10 * ((twoTo 96 - 1) / 10) + 5 = twoTo 96 - 1 := by decide
  have less : 10 * n ≤ (twoTo 96 - 1) * den := by
    rw [← bound, Nat.add_mul, Nat.mul_assoc]
    omega
  have rounded : roundHalfEven (10 * n) den ≤ roundHalfEven ((twoTo 96 - 1) * den) den :=
    roundHalfEven_mono positive positive (Nat.mul_le_mul_right den less)
  rw [roundHalfEven_mul positive] at rounded
  have bits : 0 < twoTo 96 := by decide
  omega

end Decimal

end PriceDesk
