import PriceDesk.Decimal.Arithmetic
import PriceDesk.Proofs.Decimal.Rounding

namespace PriceDesk.Decimal

theorem ofParts?_of_fits {negative : Bool} {mantissa scale : Nat} (fits : mantissa < twoTo 96)
    (places : scale ≤ 28) :
    ofParts? negative mantissa scale = some ⟨negative, mantissa, scale, fits, places⟩ :=
  dif_pos ⟨fits, places⟩

@[simp] theorem mantissa_unsignZero (d : Decimal) : d.unsignZero.mantissa = d.mantissa := by
  unfold unsignZero
  split <;> rfl

@[simp] theorem scale_unsignZero (d : Decimal) : d.unsignZero.scale = d.scale := by
  unfold unsignZero
  split <;> rfl

theorem negative_unsignZero_iff {d : Decimal} :
    d.unsignZero.negative = true ↔ d.negative = true ∧ d.mantissa ≠ 0 := by
  by_cases zero : d.mantissa = 0
  · simp [unsignZero, isZero, abs, zero]
  · simp [unsignZero, isZero, zero]

/-- The reciprocal of `m / 10 ^ s` at so many places, as a whole number of units of the last. -/
def rounded (m s places : Nat) : Nat := roundHalfEven (tenTo (s + places)) m

/-- The most places with which the reciprocal of `m / 10 ^ s` has room. -/
structure Finest (m s places : Nat) : Prop where
  most : places ≤ 28
  fits : rounded m s places < twoTo 96
  finest : places = 28 ∨ twoTo 96 ≤ rounded m s (places + 1)

section Finest

variable {m s places m' s' places' : Nat}

theorem rounded_mono (positive : 0 < m) (le : places ≤ places') :
    rounded m s places ≤ rounded m s places' := by
  apply roundHalfEven_mono positive positive
  exact Nat.mul_le_mul_right m (tenTo_le (Nat.add_le_add_left le s))

theorem rounded_anti (positive : 0 < m) (positive' : 0 < m')
    (less : m * tenTo s' ≤ m' * tenTo s) : rounded m' s' places ≤ rounded m s places := by
  apply roundHalfEven_mono positive' positive
  calc tenTo (s' + places) * m = (m * tenTo s') * tenTo places := by rw [tenTo_add]; ring
    _ ≤ (m' * tenTo s) * tenTo places := Nat.mul_le_mul_right _ less
    _ = tenTo (s + places) * m' := by rw [tenTo_add]; ring

theorem Finest.rounded_eq_zero_iff (finest : Finest m s places) (positive : 0 < m) :
    rounded m s places = 0 ↔ 2 * tenTo (28 + s) ≤ m := by
  rw [rounded, roundHalfEven_eq_zero_iff positive]
  rcases finest.finest with rfl | large
  · rw [Nat.add_comm]
  · have least := twoTo_le_ten_mul (n := tenTo (s + places)) positive
      (by rw [← tenTo_succ]; exact large)
    have nonzero : ¬ 2 * tenTo (s + places) ≤ m := by
      rw [← roundHalfEven_eq_zero_iff positive]
      intro nothing
      rw [nothing] at least
      exact absurd least (by decide)
    refine iff_of_false nonzero fun vanishes => nonzero ?_
    have less : tenTo (s + places) ≤ tenTo (28 + s) := tenTo_le (by have := finest.most; omega)
    omega

theorem Finest.anti (finest : Finest m s places) (finest' : Finest m' s' places')
    (positive : 0 < m) (positive' : 0 < m') (less : m * tenTo s' ≤ m' * tenTo s) :
    rounded m' s' places' * tenTo places ≤ rounded m s places * tenTo places' := by
  have fewer : places ≤ places' := by
    by_contra more
    rcases finest'.finest with all | large
    · have most := finest.most
      omega
    · have next : rounded m' s' (places' + 1) ≤ rounded m s places :=
        (rounded_mono positive' (by omega)).trans (rounded_anti positive positive' less)
      have fits := finest.fits
      omega
  rcases Nat.lt_or_eq_of_le fewer with more | rfl
  · -- The coarser one fills 96 bits, so that the finer one is below it.
    have large : twoTo 96 ≤ 10 * rounded m s places := by
      apply twoTo_le_ten_mul positive
      rw [← tenTo_succ]
      have most := finest'.most
      exact finest.finest.resolve_left (by omega)
    have fits := finest'.fits
    calc rounded m' s' places' * tenTo places ≤ (10 * rounded m s places) * tenTo places :=
          Nat.mul_le_mul_right _ (by omega)
      _ = rounded m s places * tenTo (places + 1) := by rw [tenTo_succ]; ring
      _ ≤ rounded m s places * tenTo places' := Nat.mul_le_mul_left _ (tenTo_le more)
  · exact Nat.mul_le_mul_right _ (rounded_anti positive positive' less)

theorem exists_finest {q : Nat} (positive : 0 < m) (exact : tenTo (s + places) = q * m)
    (fits : q < twoTo 96) (most : places ≤ 28) :
    ∃ finer, Finest m s finer ∧ q * tenTo finer = rounded m s finer * tenTo places := by
  obtain ⟨n, within⟩ : ∃ n, places + n = 28 := ⟨28 - places, by omega⟩
  induction n generalizing places q with
  | zero =>
    have whole : rounded m s places = q := by rw [rounded, exact, roundHalfEven_mul positive]
    exact ⟨places, ⟨most, by rwa [whole], .inl within⟩, by rw [whole]⟩
  | succ n ih =>
    have whole : rounded m s places = q := by rw [rounded, exact, roundHalfEven_mul positive]
    have next : tenTo (s + (places + 1)) = (10 * q) * m := by
      rw [← Nat.add_assoc, tenTo_succ, exact, Nat.mul_assoc]
    by_cases room : 10 * q < twoTo 96
    · obtain ⟨finer, finest, same⟩ := ih next room (by omega) (by omega)
      refine ⟨finer, finest, ?_⟩
      rw [tenTo_succ] at same
      apply Nat.eq_of_mul_eq_mul_left (show 0 < 10 by decide)
      rw [← Nat.mul_assoc, same]
      ring
    · refine ⟨places, ⟨most, by rwa [whole], .inr ?_⟩, by rw [whole]⟩
      rw [rounded, next, roundHalfEven_mul positive]
      omega

end Finest

theorem div_mod_of_parts {n q r m : Nat} (value : n = q * m + r) (rest : r < m) :
    n / m = q ∧ n % m = r := by
  apply (Nat.div_mod_unique (Nat.lt_of_le_of_lt (Nat.zero_le r) rest)).mpr
  rw [Nat.mul_comm m]
  exact ⟨by omega, rest⟩

/-- A division of one by `m / 10 ^ s` in which `t` digits were produced. -/
structure Division.Sound (d : Division) (m s t : Nat) : Prop where
  places : d.places = (t : Int) - s
  within : t ≤ 28 + s
  value : tenTo t = d.quotient * m + d.remainder
  rest : d.remainder < m
  fits : d.quotient < twoTo 96

/-- How such a division ends: with the reciprocal, rounded at the most places. -/
structure Division.Ends (d : Division) (m s : Nat) : Prop where
  least : 0 ≤ d.places
  most : d.places ≤ 28
  fits : d.quotient < twoTo 96
  finest : ∃ finer, Finest m s finer ∧
    d.quotient * tenTo finer = rounded m s finer * tenTo d.places.toNat

namespace Division

variable {d e : Division} {m s t p : Nat}

theorem ends_of_finest {places : Nat} (finest : Finest m s places)
    (quotient : e.quotient = rounded m s places) (at_ : e.places = places) : e.Ends m s where
  least := by omega
  most := by
    have most := finest.most
    omega
  fits := quotient ▸ finest.fits
  finest := ⟨places, finest, by rw [quotient, at_, Int.toNat_natCast]⟩

theorem Sound.quotient_le (sound : d.Sound m s t) : d.quotient ≤ tenTo t := by
  have positive : 1 ≤ m := Nat.lt_of_le_of_lt (Nat.zero_le _) sound.rest
  have times := Nat.mul_le_mul_left d.quotient positive
  have value := sound.value
  omega

theorem ends_full {q r : Nat} (scale : s ≤ 28) (within : t ≤ 28 + s)
    (value : tenTo t = q * m + r) (rest : r < m) (large : twoTo 96 ≤ roundHalfEven (tenTo t) m)
    (bound : q < twoTo 96 + tenTo 9) (places : e.places = (t : Int) - s - 1)
    (quotient : e.quotient =
      if 5 < q % 10 ∨ q % 10 = 5 ∧ (r ≠ 0 ∨ q / 10 % 2 = 1) then q / 10 + 1 else q / 10) :
    e.Ends m s := by
  have positive : 0 < m := Nat.lt_of_le_of_lt (Nat.zero_le r) rest
  have most := roundHalfEven_le (tenTo t) m
  have digits : tenTo t / m = q := (div_mod_of_parts value rest).1
  have many : 28 < t := by
    have times := Nat.mul_le_mul_left q positive
    exact lt_of_twoTo_le_tenTo (by omega)
  obtain ⟨places', rfl⟩ : ∃ places', t = s + (places' + 1) := ⟨t - s - 1, by omega⟩
  have tenth : e.quotient = rounded m s places' := by
    rw [quotient, rounded]
    refine (roundHalfEven_tenth ?_ rest).symm
    rw [← tenTo_succ]
    exact value
  have small : q / 10 + 1 < twoTo 96 := by
    have bits : tenTo 9 + 20 ≤ twoTo 96 := by decide
    omega
  refine ends_of_finest ⟨by omega, ?_, .inr large⟩ tenth (by omega)
  rw [← tenth, quotient]
  split <;> omega

theorem Sound.append (sound : d.Sound m s t) (scale : s ≤ 28) (few : p ≤ 9)
    (within : t + p ≤ 28 + s) (room : d.quotient * tenTo p < twoTo 96) :
    (∃ e : Division, d.append m p = .partly e ∧ e.Sound m s (t + p)) ∨
      ∃ e : Division, d.append m p = .full e ∧ e.Ends m s := by
  have positive : 0 < m := Nat.lt_of_le_of_lt (Nat.zero_le _) sound.rest
  have places := sound.places
  -- The digits of this round are a quotient by `m` themselves.
  have digits := Nat.div_add_mod (d.remainder * tenTo p) m
  have rest := Nat.mod_lt (d.remainder * tenTo p) positive
  have value : tenTo (t + p) =
      (d.quotient * tenTo p + d.remainder * tenTo p / m) * m + d.remainder * tenTo p % m := by
    rw [tenTo_add, sound.value, Nat.add_mul, Nat.add_mul, Nat.add_assoc,
      Nat.mul_comm (d.remainder * tenTo p / m) m, digits, Nat.mul_right_comm]
  have below : d.remainder * tenTo p / m < tenTo p := by
    rw [Nat.div_lt_iff_lt_mul positive, Nat.mul_comm]
    exact (Nat.mul_lt_mul_left (tenTo_pos p)).mpr sound.rest
  have block : tenTo p ≤ tenTo 9 := tenTo_le few
  unfold Division.append
  simp only [if_neg (Nat.not_le_of_lt room)]
  by_cases large : twoTo 96 ≤ d.quotient * tenTo p + d.remainder * tenTo p / m
  · rw [if_pos large]
    have rounds : twoTo 96 ≤ roundHalfEven (tenTo (t + p)) m := by
      apply large.trans
      apply Nat.le_trans _ (le_roundHalfEven _ _)
      rw [(div_mod_of_parts value rest).1]
    refine .inr ⟨_, rfl, ends_full scale within value rest rounds (by omega) ?_ ?_⟩
    · simp only [places, Int.ofNat_eq_natCast]
      omega
    · simp only [Bool.or_eq_true, Bool.and_eq_true, decide_eq_true_eq, beq_iff_eq, bne_iff_ne]
  · rw [if_neg large]
    refine .inl ⟨_, rfl, ?_, within, value, rest, Nat.lt_of_not_le large⟩
    simp only [places, Int.ofNat_eq_natCast]
    omega

theorem room_eq_some (found : d.room = some p) :
    1 ≤ p ∧ p ≤ 9 ∧ d.places + p ≤ 28 ∧ d.quotient * tenTo p < twoTo 96 := by
  have among := List.mem_of_find?_eq_some found
  have fits := List.find?_some found
  simp only [List.mem_cons, List.not_mem_nil, or_false] at among
  simp only [Bool.and_eq_true, decide_eq_true_eq, Int.ofNat_eq_natCast] at fits
  exact ⟨by omega, by omega, fits.1, fits.2⟩

theorem room_eq_none (missing : d.room = none) :
    28 ≤ d.places ∨ twoTo 96 ≤ d.quotient * 10 := by
  have one := List.find?_eq_none.mp missing 1 (by simp)
  simp only [Bool.and_eq_true, decide_eq_true_eq, Int.ofNat_eq_natCast, not_and, Nat.not_lt] at one
  by_cases full : 28 ≤ d.places
  · exact .inl full
  · exact .inr (one (by omega))

theorem Sound.round (sound : d.Sound m s t) (scale : s ≤ 28)
    (noRoom : 28 ≤ d.places ∨ twoTo 96 ≤ d.quotient * 10) : (d.round m).Ends m s := by
  have positive : 0 < m := Nat.lt_of_le_of_lt (Nat.zero_le _) sound.rest
  have places := sound.places
  have within := sound.within
  have value := sound.value
  have rest := sound.rest
  have fits := sound.fits
  have less := sound.quotient_le
  have bits : 100 ≤ twoTo 96 := by decide
  have enough : s ≤ t := by
    rcases noRoom with most | large
    · omega
    · have many : 28 < t + 1 := lt_of_twoTo_le_tenTo (by rw [tenTo_succ]; omega)
      omega
  obtain ⟨digits, left⟩ := div_mod_of_parts value rest
  have rounds : roundHalfEven (tenTo t) m =
      if (m < 2 * d.remainder || (2 * d.remainder == m && d.quotient % 2 == 1)) = true
      then d.quotient + 1 else d.quotient := by
    simp only [roundHalfEven, digits, left, Bool.or_eq_true, Bool.and_eq_true, decide_eq_true_eq,
      beq_iff_eq]
    split_ifs <;> omega
  unfold Division.round
  dsimp only
  rw [← rounds]
  obtain ⟨places', rfl⟩ : ∃ places', t = s + places' := ⟨t - s, by omega⟩
  split
  · rename_i grown
    -- The quotient was 96 bits of ones, so that it has places enough to give one up.
    rw [beq_iff_eq] at grown
    have ones : d.quotient = twoTo 96 - 1 ∧ d.remainder ≠ 0 := by
      rw [rounds] at grown
      split at grown
      · rename_i up
        simp only [Bool.or_eq_true, Bool.and_eq_true, decide_eq_true_eq, beq_iff_eq] at up
        omega
      · omega
    have many : 28 < s + places' := lt_of_twoTo_le_tenTo (by omega)
    obtain ⟨fewer, rfl⟩ : ∃ fewer, places' = fewer + 1 := ⟨places' - 1, by omega⟩
    have tenth : rounded m s fewer = twoTo 96 / 10 + 1 := by
      have last : 5 < d.quotient % 10 ∨
          d.quotient % 10 = 5 ∧ (d.remainder ≠ 0 ∨ d.quotient / 10 % 2 = 1) := by
        rw [ones.1]
        exact .inr ⟨by decide, .inl ones.2⟩
      rw [rounded, roundHalfEven_tenth (by rw [← tenTo_succ]; exact value) rest, if_pos last,
        ones.1]
      rfl
    have finest : Finest m s fewer := by
      refine ⟨by omega, ?_, .inr (Nat.le_of_eq grown.symm)⟩
      rw [tenth]
      decide
    apply ends_of_finest finest
    · rw [tenth, ← grown]
    · dsimp only
      omega
  · rename_i kept
    rw [beq_iff_eq] at kept
    have finest : Finest m s places' := by
      refine ⟨by omega, ?_, ?_⟩
      · have most := roundHalfEven_le (tenTo (s + places')) m
        rw [rounded]
        omega
      · rcases noRoom with most | large
        · left
          omega
        · right
          apply Nat.le_trans _ (le_roundHalfEven _ _)
          rw [Nat.le_div_iff_mul_le positive, ← Nat.add_assoc, tenTo_succ, value]
          have times := Nat.mul_le_mul_right m large
          have parts : d.quotient * 10 * m = 10 * (d.quotient * m) := by ring
          omega
    exact ends_of_finest finest rfl (by dsimp only; omega)

theorem Sound.proceed {go : Division → Option Division} (sound : d.Sound m s t)
    (scale : s ≤ 28) (few : p ≤ 9) (within : t + p ≤ 28 + s)
    (room : d.quotient * tenTo p < twoTo 96)
    (next : ∀ e, e.Sound m s (t + p) → ∃ e', go e = some e' ∧ e'.Ends m s) :
    ∃ e, (match d.append m p with
      | .overflow => none
      | .full d => some d
      | .partly d => go d) = some e ∧ e.Ends m s := by
  rcases sound.append scale few within room with ⟨e, goesOn, sound'⟩ | ⟨e, ends, last⟩
  · rw [goesOn]
    exact next e sound'
  · rw [ends]
    exact ⟨e, rfl, last⟩

theorem Sound.divideOn (sound : d.Sound m s t) (scale : s ≤ 28) (fuel : Nat)
    (enough : 28 + s < t + fuel) : ∃ e, Decimal.divideOn m fuel d = some e ∧ e.Ends m s := by
  induction fuel generalizing d t with
  | zero =>
    have within := sound.within
    omega
  | succ fuel ih =>
    have places := sound.places
    have within := sound.within
    have value := sound.value
    unfold Decimal.divideOn
    dsimp only
    split
    · rename_i whole
      rw [beq_iff_eq] at whole
      split
      · rename_i there
        obtain ⟨few, rfl⟩ : ∃ few, t = s + few := ⟨t - s, by omega⟩
        have at_ : d.places = few := by omega
        rw [whole, Nat.add_zero] at value
        have positive : 0 < m := Nat.lt_of_le_of_lt (Nat.zero_le _) sound.rest
        have exact_ := exists_finest positive value sound.fits (by omega)
        refine ⟨d, rfl, there, by omega, sound.fits, ?_⟩
        rwa [at_, Int.toNat_natCast]
      · -- Digits before the point are missing, which are zeros.
        rename_i missing
        have before : t + min 9 (-d.places).toNat ≤ 28 := by omega
        have few := Nat.mul_le_mul_right (tenTo (min 9 (-d.places).toNat)) sound.quotient_le
        rw [← tenTo_add] at few
        have most := tenTo_le before
        have bits : tenTo 28 < twoTo 96 := by decide
        exact sound.proceed scale (Nat.min_le_left _ _) (by omega) (by omega) fun _ next =>
          ih next (by omega)
    · have marked : Division.Sound { d with inexact := true } m s t :=
        ⟨places, within, value, sound.rest, sound.fits⟩
      split
      · rename_i p found
        obtain ⟨one, few, room, fits⟩ := room_eq_some found
        have more : d.places + p ≤ 28 := room
        exact marked.proceed scale few (by omega) fits fun _ next => ih next (by omega)
      · rename_i missing
        exact ⟨_, rfl, marked.round scale (room_eq_none missing)⟩

end Division

def Shortened (q s : Nat) (x : Nat × Nat) : Prop :=
  ∃ k, q = x.1 * tenTo k ∧ s = x.2 + k

theorem Shortened.refl (q s : Nat) : Shortened q s (q, s) := ⟨0, (Nat.mul_one q).symm, rfl⟩

theorem Shortened.trans {q s : Nat} {x y : Nat × Nat} (first : Shortened q s x)
    (more : Shortened x.1 x.2 y) : Shortened q s y := by
  obtain ⟨k, rfl, rfl⟩ := first
  obtain ⟨l, digits, places⟩ := more
  exact ⟨l + k, by rw [digits, tenTo_add, Nat.mul_assoc], by omega⟩

theorem shortened_block {q s k : Nat} (bits : Bool) :
    Shortened q s (if bits && k ≤ s && q % tenTo k == 0 then (q / tenTo k, s - k) else (q, s)) := by
  split
  · rename_i block
    simp only [Bool.and_eq_true, decide_eq_true_eq, beq_iff_eq] at block
    refine ⟨k, ?_, (Nat.sub_add_cancel block.1.2).symm⟩
    exact (Nat.div_mul_cancel (Nat.dvd_of_mod_eq_zero block.2)).symm
  · exact .refl q s

theorem shortened_eights (q s n : Nat) : Shortened q s (dropZeroBlocks.eights n (q, s)) := by
  induction n generalizing q s with
  | zero => exact .refl q s
  | succ n ih =>
    unfold dropZeroBlocks.eights
    split
    · rename_i block
      have first := shortened_block (q := q) (s := s) (k := 8) (q % twoTo 32 == 0)
      rw [if_pos block] at first
      exact first.trans (ih _ _)
    · exact .refl q s

theorem shortened_dropZeroBlocks (q s : Nat) : Shortened q s (dropZeroBlocks q s) := by
  unfold dropZeroBlocks
  generalize eights : dropZeroBlocks.eights 4 (q, s) = x
  have shorter : Shortened q s x := eights ▸ shortened_eights q s 4
  obtain ⟨q₁, s₁⟩ := x
  exact ((shorter.trans (shortened_block (k := 4) _)).trans (shortened_block (k := 2) _)).trans
    (shortened_block (k := 1) _)

/-- Whether a decimal is the reciprocal of another, rounded half to even at the most places for
which there is room. Zeros at the end may be left out. -/
structure Inverts (r d : Decimal) : Prop where
  sign : r.negative = true ↔ d.negative = true ∧ r.mantissa ≠ 0
  finest : ∃ places, Finest d.mantissa d.scale places ∧
    r.mantissa * tenTo places = rounded d.mantissa d.scale places * tenTo r.scale

variable {d r : Decimal}

theorem exists_reciprocal? (nonzero : d.mantissa ≠ 0) :
    ∃ r, d.reciprocal? = some r ∧ r.Inverts d := by
  have scale := d.scale_le
  have positive := Nat.pos_of_ne_zero nonzero
  have begins : Division.Sound
      { quotient := 1 / d.mantissa, remainder := 1 % d.mantissa, places := -(d.scale : Int),
        inexact := false } d.mantissa d.scale 0 := by
    refine ⟨by simp, Nat.zero_le _, ?_, Nat.mod_lt _ positive, ?_⟩
    · rw [Nat.mul_comm]
      exact (Nat.div_add_mod 1 d.mantissa).symm
    · exact Nat.lt_of_le_of_lt (Nat.div_le_self _ _) (by decide)
  obtain ⟨e, divides, ends⟩ := begins.divideOn scale 64 (by omega)
  obtain ⟨places, finest, same⟩ := ends.finest
  have least := ends.least
  have most := ends.most
  have fits := ends.fits
  obtain ⟨q, s, parts, k, digits, few⟩ : ∃ q s,
      (if e.inexact then dropZeroBlocks e.quotient e.places.toNat
        else (e.quotient, e.places.toNat)) = (q, s) ∧
        Shortened e.quotient e.places.toNat (q, s) := by
    split
    · exact ⟨_, _, rfl, shortened_dropZeroBlocks _ _⟩
    · exact ⟨_, _, rfl, .refl _ _⟩
  dsimp only at digits few
  have fits' : q < twoTo 96 := by
    have times := Nat.le_mul_of_pos_right q (tenTo_pos k)
    omega
  have places' : s ≤ 28 := by omega
  have shown : d.isZero = false := by simpa [isZero] using nonzero
  refine ⟨unsignZero ⟨d.negative, q, s, fits', places'⟩, ?_, ?_, places, finest, ?_⟩
  · simp only [reciprocal?, shown, divides, parts, bind, Option.bind, Bool.false_eq_true,
      if_false, if_neg (Int.not_lt.mpr least), ofParts?_of_fits fits' places', Option.map_some]
  · rw [negative_unsignZero_iff, mantissa_unsignZero]
  · rw [mantissa_unsignZero, scale_unsignZero]
    apply Nat.eq_of_mul_eq_mul_right (tenTo_pos k)
    rw [digits, few, tenTo_add] at same
    calc q * tenTo places * tenTo k = q * tenTo k * tenTo places := Nat.mul_right_comm _ _ _
      _ = rounded d.mantissa d.scale places * tenTo s * tenTo k := by rw [same, Nat.mul_assoc]

theorem reciprocal?_eq_none_iff : d.reciprocal? = none ↔ d.mantissa = 0 := by
  constructor
  · intro missing
    by_contra nonzero
    obtain ⟨r, known, _⟩ := exists_reciprocal? nonzero
    exact Option.some_ne_none r (known.symm.trans missing)
  · intro zero
    have isZero : d.isZero = true := beq_iff_eq.mpr zero
    rw [reciprocal?, if_pos isZero]
    rfl

theorem inverts_of_reciprocal? (known : d.reciprocal? = some r) : r.Inverts d := by
  have nonzero : d.mantissa ≠ 0 := by
    intro zero
    cases (reciprocal?_eq_none_iff.mpr zero).symm.trans known
  obtain ⟨r', found, inverts⟩ := exists_reciprocal? nonzero
  cases found.symm.trans known
  exact inverts

theorem Inverts.eq_zero_iff (inverts : r.Inverts d) (nonzero : d.mantissa ≠ 0) :
    r.mantissa = 0 ↔ 2 * tenTo (28 + d.scale) ≤ d.mantissa := by
  obtain ⟨places, finest, same⟩ := inverts.finest
  rw [← finest.rounded_eq_zero_iff (Nat.pos_of_ne_zero nonzero)]
  have left := Nat.ne_of_gt (tenTo_pos places)
  have right := Nat.ne_of_gt (tenTo_pos r.scale)
  have zero_iff : r.mantissa * tenTo places = 0 ↔
      rounded d.mantissa d.scale places * tenTo r.scale = 0 := by rw [same]
  simpa only [Nat.mul_eq_zero, left, right, or_false] using zero_iff

theorem Inverts.nonnegative (inverts : r.Inverts d) (nonnegative : d.negative = false) :
    r.negative = false := by
  rw [← Bool.not_eq_true, inverts.sign, nonnegative]
  exact fun both => Bool.noConfusion both.1

theorem reciprocal?_eq_some (nonzero : d.mantissa ≠ 0) :
    ∃ r, d.reciprocal? = some r ∧ (r.mantissa = 0 ↔ 2 * tenTo (28 + d.scale) ≤ d.mantissa) ∧
      (d.negative = false → r.negative = false) := by
  obtain ⟨r, known, inverts⟩ := exists_reciprocal? nonzero
  exact ⟨r, known, inverts.eq_zero_iff nonzero, inverts.nonnegative⟩

end PriceDesk.Decimal
