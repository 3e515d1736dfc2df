import PriceDesk.Pacing.Plan
import PriceDesk.Proofs.Pacing.TwoTiers

namespace PriceDesk

theorem getElem_le_of_sorted {s : List Instant} (sorted : s.Pairwise (· ≤ ·)) {i j : Nat}
    (le : i ≤ j) (below : j < s.length) : s[i] ≤ s[j] := by
  rcases Nat.lt_or_eq_of_le le with earlier | rfl
  · exact List.pairwise_iff_getElem.mp sorted _ _ _ below earlier
  · exact Nat.le_refl _

/-- In a sorted list, where the test passes from some element on, fewer elements pass than follow
a position, itself included, exactly when the element there fails. -/
theorem countP_lt_iff_of_sorted {s : List Instant} {f : Instant → Bool} {i : Nat}
    (sorted : s.Pairwise (· ≤ ·)) (upward : ∀ {a b}, a ≤ b → f a = true → f b = true)
    (inside : i < s.length) : s.countP f < s.length - i ↔ f s[i] = false := by
  constructor
  · intro few
    rw [← Bool.not_eq_true]
    intro passes
    have tail : (s.drop i).countP f = (s.drop i).length := by
      refine List.countP_eq_length.mpr fun b member => ?_
      obtain ⟨j, below, rfl⟩ := List.getElem_of_mem member
      rw [List.getElem_drop]
      exact upward (getElem_le_of_sorted sorted (Nat.le_add_right i j) _) passes
    have part : (s.drop i).countP f ≤ s.countP f := (List.drop_sublist i s).countP_le
    rw [tail, List.length_drop] at part
    omega
  · intro fails
    have head : (s.take (i + 1)).countP f = 0 := by
      refine List.countP_eq_zero.mpr fun a member passes => ?_
      obtain ⟨j, below, rfl⟩ := List.getElem_of_mem member
      rw [List.length_take] at below
      rw [List.getElem_take] at passes
      have before : j ≤ i := by omega
      exact absurd (upward (getElem_le_of_sorted sorted before inside) passes)
        (Bool.not_eq_true _ ▸ fails)
    have rest : (s.drop (i + 1)).countP f ≤ (s.drop (i + 1)).length := List.countP_le_length
    rw [← List.take_append_drop (i + 1) s, List.countP_append, head, List.take_append_drop]
    rw [List.length_drop] at rest
    omega

theorem WindowPolicy.covers_of_le_hit {p : WindowPolicy} {now a b : Instant} (le : a ≤ b)
    (covered : p.covers now a = true) : p.covers now b = true := by
  simp only [covers, decide_eq_true_eq] at covered ⊢
  exact Nat.lt_of_le_of_lt (Nat.sub_le_sub_left le now) covered

namespace Limiter

variable (l : Limiter) (tier : Tier) (now : Instant) (e : Duration)

theorem isSafe_iff_countP : (l.isSafe tier now).1 = true ↔
    l.hits.countP ((l.policy tier).covers now) < (l.policy tier).admitted := by
  rw [isSafe_eq, decide_eq_true_eq, ← List.countP_eq_length_filter, List.countP_append,
    List.countP_singleton]
  -- An attempt counts itself, unless the window is closed and covers nothing.
  rcases Nat.eq_zero_or_pos (l.policy tier).window with closed | positive
  · have none : (l.policy tier).covers now = fun _ => false := by
      funext hit
      simp only [WindowPolicy.covers, closed, Nat.not_lt_zero, decide_false]
    simp only [none, List.countP_false]
    exact iff_of_true (Nat.zero_le _) (WindowPolicy.admitted_pos _)
  · have itself : (l.policy tier).covers now now = true := by
      rw [WindowPolicy.covers, Nat.sub_self]
      exact decide_eq_true positive
    rw [itself]
    exact Iff.rfl

theorem countP_hits_later : l.hits.countP ((l.policy tier).covers (now + e)) =
    (l.live tier now).mergeSort.countP ((l.policy tier).covers (now + e)) := by
  rw [(List.mergeSort_perm _ _).countP_eq, live, List.countP_filter]
  refine List.countP_congr fun hit _ => ?_
  rw [Bool.and_eq_true]
  exact ⟨fun covered => ⟨covered, WindowPolicy.covers_of_le (Nat.le_add_right now e) covered⟩,
    fun both => both.1⟩

theorem live_sorted : (l.live tier now).mergeSort.Pairwise (· ≤ ·) := by
  have transitive : ∀ a b c : Instant, decide (a ≤ b) = true → decide (b ≤ c) = true →
      decide (a ≤ c) = true := fun a b c one two =>
    decide_eq_true (Nat.le_trans (of_decide_eq_true one) (of_decide_eq_true two))
  have total : ∀ a b : Instant, (decide (a ≤ b) || decide (b ≤ a)) = true := by
    intro a b
    rw [Bool.or_eq_true, decide_eq_true_eq, decide_eq_true_eq]
    exact Nat.le_total a b
  exact (List.pairwise_mergeSort transitive total _).imp of_decide_eq_true

variable {l tier now e} {p : WindowPolicy}

theorem timeUntilSafe?_of_room
    (room : (l.live tier now).mergeSort.length < (l.policy tier).admitted) :
    l.timeUntilSafe? tier now = some 0 := by
  simp only [timeUntilSafe?, room, if_true]

theorem timeUntilSafe?_of_crowded {i : Nat} (policy : l.policy tier = p)
    (crowded : p.admitted ≤ (l.live tier now).mergeSort.length)
    (position : i = (l.live tier now).mergeSort.length + 1 - p.admitted - 1)
    (inside : i < (l.live tier now).mergeSort.length) :
    l.timeUntilSafe? tier now =
      ((l.live tier now).mergeSort[i].after? p.window).map (· - now) := by
  subst policy position
  simp only [timeUntilSafe?, Nat.not_lt.mpr crowded, if_false, List.getElem?_eq_getElem inside]
  rfl

theorem covers_of_mem_live {hit : Instant} (member : hit ∈ (l.live tier now).mergeSort) :
    (l.policy tier).covers now hit = true :=
  (List.mem_filter.mp (List.mem_mergeSort.mp member)).2

theorem isSafe_of_room
    (room : (l.live tier now).mergeSort.length < (l.policy tier).admitted) :
    (l.isSafe tier (now + e)).1 = true := by
  rw [isSafe_iff_countP, countP_hits_later]
  exact Nat.lt_of_le_of_lt List.countP_le_length room

theorem isSafe_iff_of_crowded {i : Nat} (policy : l.policy tier = p)
    (crowded : p.admitted ≤ (l.live tier now).mergeSort.length)
    (position : i = (l.live tier now).mergeSort.length + 1 - p.admitted - 1)
    (inside : i < (l.live tier now).mergeSort.length) :
    (l.isSafe tier (now + e)).1 = true ↔
      (l.live tier now).mergeSort[i] + p.window ≤ now + e := by
  subst policy
  have threshold := countP_lt_iff_of_sorted (f := (l.policy tier).covers (now + e))
    (live_sorted l tier now) WindowPolicy.covers_of_le_hit inside
  have rest : (l.live tier now).mergeSort.length - i = (l.policy tier).admitted := by
    have positive := (l.policy tier).admitted_pos
    omega
  have positive := (WindowPolicy.covers_iff.mp (covers_of_mem_live (List.getElem_mem inside))).1
  rw [rest] at threshold
  rw [isSafe_iff_countP, countP_hits_later, threshold, ← Bool.not_eq_true,
    WindowPolicy.covers_iff, not_and, Nat.not_lt]
  exact ⟨fun expired => expired positive, fun expired _ => expired⟩

/-- Whether a caller who comes now has to wait until the window opens. -/
structure Opens (l : Limiter) (tier : Tier) (now opening : Instant) : Prop where
  later : now < opening
  safe : ∀ e, (l.isSafe tier (now + e)).1 = true ↔ opening ≤ now + e
  wait : l.timeUntilSafe? tier now = if opening < Instant.limit then some (opening - now) else none

theorem opens_of_crowded {i : Nat} (policy : l.policy tier = p)
    (crowded : p.admitted ≤ (l.live tier now).mergeSort.length)
    (position : i = (l.live tier now).mergeSort.length + 1 - p.admitted - 1)
    (inside : i < (l.live tier now).mergeSort.length) :
    l.Opens tier now ((l.live tier now).mergeSort[i] + p.window) where
  later := by
    have covered := covers_of_mem_live (List.getElem_mem inside)
    exact policy ▸ (WindowPolicy.covers_iff.mp covered).2
  safe _ := isSafe_iff_of_crowded policy crowded position inside
  wait := by
    rw [timeUntilSafe?_of_crowded policy crowded position inside, Instant.after?]
    split <;> rfl

theorem free_or_opens (l : Limiter) (tier : Tier) (now : Instant) :
    ((∀ e, (l.isSafe tier (now + e)).1 = true) ∧ l.timeUntilSafe? tier now = some 0) ∨
      ∃ opening, l.Opens tier now opening := by
  rcases Nat.lt_or_ge (l.live tier now).mergeSort.length (l.policy tier).admitted with
    room | crowded
  · exact .inl ⟨fun _ => isSafe_of_room room, timeUntilSafe?_of_room room⟩
  · have positive := (l.policy tier).admitted_pos
    have inside : (l.live tier now).mergeSort.length + 1 - (l.policy tier).admitted - 1 <
        (l.live tier now).mergeSort.length := by omega
    exact .inr ⟨_, opens_of_crowded rfl crowded rfl inside⟩

theorem isSafe_iff_of_told {wait : Duration} (told : l.timeUntilSafe? tier now = some wait) :
    (l.isSafe tier (now + e)).1 = true ↔ wait ≤ e := by
  rcases free_or_opens l tier now with ⟨free, none⟩ | ⟨opening, opens⟩
  · cases told.symm.trans none
    exact iff_of_true (free e) (Nat.zero_le e)
  · rw [opens.wait] at told
    split at told
    · cases told
      rw [opens.safe, Nat.sub_le_iff_le_add']
    · cases told

theorem not_isSafe_of_untold (untold : l.timeUntilSafe? tier now = none)
    (shown : now + e < Instant.limit) : (l.isSafe tier (now + e)).1 = false := by
  rcases free_or_opens l tier now with ⟨-, told⟩ | ⟨opening, opens⟩
  · cases untold.symm.trans told
  · rw [opens.wait] at untold
    split at untold
    · cases untold
    · next beyond =>
      rw [← Bool.not_eq_true, opens.safe, Nat.not_le]
      exact Nat.lt_of_lt_of_le shown (Nat.not_lt.mp beyond)

variable (tier now e)

/-- After any earlier calls, an attempt after a delay is admitted exactly when the delay is no
shorter than the wait that is told now. No wait is told just if the window opens at an instant that
cannot be told, and then no attempt is admitted before. The position that the wait is read at
exists, the attempt there is still inside the window, and asking changes nothing. -/
theorem wait_is_the_threshold (anonymous authenticated : WindowPolicy) (pause : Duration)
    (earlier : List Arrival) :
    let fresh : Limiter := { anonymous, authenticated, pause }
    let l := fresh.after earlier
    let p := fresh.policy tier
    let live := (l.live tier now).mergeSort
    (∀ wait, l.timeUntilSafe? tier now = some wait →
        ((l.isSafe tier (now + e)).1 = true ↔ wait ≤ e)) ∧
      (l.timeUntilSafe? tier now = none → now + e < Instant.limit →
        (l.isSafe tier (now + e)).1 = false) ∧
      (live.length < max 1 p.maximum → l.timeUntilSafe? tier now = some 0) ∧
      (max 1 p.maximum ≤ live.length →
        max 1 p.maximum ≤ live.length + 1 ∧ 1 ≤ live.length + 1 - max 1 p.maximum ∧
        ∃ inRange : live.length + 1 - max 1 p.maximum - 1 < live.length,
          let opening := live[live.length + 1 - max 1 p.maximum - 1] + p.window
          now < opening ∧ l.timeUntilSafe? tier now =
            if opening < Instant.limit then some (opening - now) else none) ∧
      Limiter.gauge.timeUntilSafe? tier now l = (l.timeUntilSafe? tier now, l) := by
  intro fresh l p live
  have policy : l.policy tier = p := policy_after tier
  refine ⟨fun wait => isSafe_iff_of_told, not_isSafe_of_untold, fun room => ?_,
    fun crowded => ?_, rfl⟩
  · exact timeUntilSafe?_of_room (policy ▸ room)
  · have positive : 0 < max 1 p.maximum := p.admitted_pos
    have inRange : live.length + 1 - max 1 p.maximum - 1 < live.length := by omega
    have opens := opens_of_crowded policy crowded rfl inRange
    exact ⟨by omega, by omega, inRange, opens.later, opens.wait⟩

def patientPlan : RateLimitPlan := .perSecond 1 18446744073709551615

def patientLimiter : Limiter :=
  { anonymous := .of 1 (.ofSeconds 18446744073709551615)
    authenticated := .of 1 (.ofSeconds 18446744073709551615), pause := .ofSeconds 1 }

/-- An attempt that has to wait is not told how long. -/
theorem patient_caller_is_told_nothing :
    patientPlan.isValid = true ∧ patientPlan.pace? = some (.windowed patientLimiter) ∧
      ¬ ∃ wait, (patientLimiter.after [⟨.anonymous, 0⟩]).timeUntilSafe? .anonymous 0 = some wait ∧
        (((patientLimiter.after [⟨.anonymous, 0⟩]).isSafe .anonymous 0).1 = true ↔ wait ≤ 0) := by
  have built : patientPlan.pace? = some (.windowed patientLimiter) := by rfl
  have untold : (patientLimiter.after [⟨.anonymous, 0⟩]).timeUntilSafe? .anonymous 0 = none := by
    decide +kernel
  refine ⟨by decide, built, ?_⟩
  rintro ⟨wait, told, -⟩
  cases untold.symm.trans told

end Limiter

end PriceDesk
