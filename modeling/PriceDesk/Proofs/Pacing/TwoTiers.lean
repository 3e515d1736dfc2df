import Mathlib.Data.List.Induction
import PriceDesk.Proofs.Pacing.WindowBound

namespace PriceDesk

structure Arrival where
  tier : Tier
  instant : Instant

def Tier.other : Tier → Tier
  | .anonymous => .authenticated
  | .authenticated => .anonymous

theorem Tier.eq_other {tier own : Tier} (differs : tier ≠ own) : tier = own.other := by
  cases tier <;> cases own <;> simp [Tier.other] at differs ⊢

namespace Limiter

variable {l : Limiter} {a b : Arrival} {earlier arrivals : List Arrival}

/-- Whether an arrival lies in the window that ends with another one, of the tier of that one. -/
def sees (l : Limiter) (b a : Arrival) : Bool := (l.policy b.tier).spans b.instant a.instant

def after (l : Limiter) (arrivals : List Arrival) : Limiter :=
  arrivals.foldl (fun l a => (l.isSafe a.tier a.instant).2) l

def recalled (l : Limiter) : List Arrival → List Arrival
  | [] => []
  | a :: later => if later.all (l.sees · a) then a :: l.recalled later else l.recalled later

abbrev InOrder (arrivals : List Arrival) : Prop :=
  arrivals.Pairwise fun a b => a.instant ≤ b.instant

theorem InOrder.le_last (ordered : InOrder (earlier ++ [a])) {x : Arrival}
    (member : x ∈ earlier ++ [a]) : x.instant ≤ a.instant := by
  rcases List.mem_append.mp member with old | new
  · exact (List.pairwise_append.mp ordered).2.2 x old a (List.mem_singleton_self a)
  · cases List.mem_singleton.mp new
    exact Nat.le_refl _

theorem sees_self (positive : 0 < (l.policy a.tier).window) : l.sees a a = true := by
  simp only [sees, WindowPolicy.spans, Bool.and_eq_true, decide_eq_true_eq]
  exact ⟨Nat.le_refl _, Nat.lt_add_of_pos_right positive⟩

theorem sees_of_le {c : Arrival} (past : a.instant ≤ b.instant) (le : b.instant ≤ c.instant)
    (window : (l.policy c.tier).window ≤ (l.policy b.tier).window) (seen : l.sees c a = true) :
    l.sees b a = true := by
  simp only [sees, WindowPolicy.spans, Bool.and_eq_true, decide_eq_true_eq] at seen ⊢
  exact ⟨past, Nat.lt_of_le_of_lt le (Nat.lt_of_lt_of_le seen.2 (Nat.add_le_add_left window _))⟩

theorem recalled_sublist : (l.recalled arrivals).Sublist arrivals := by
  induction arrivals with
  | nil => exact .slnil
  | cons a later ih =>
    unfold recalled
    split
    · exact ih.cons_cons a
    · exact ih.cons a

theorem recalled_concat (positive : 0 < (l.policy b.tier).window) :
    l.recalled (earlier ++ [b]) = (l.recalled earlier ++ [b]).filter (l.sees b) := by
  induction earlier with
  | nil => simp [recalled, sees_self positive]
  | cons a later ih =>
    simp only [List.cons_append, recalled, List.all_append, List.all_cons, List.all_nil,
      Bool.and_true, ih]
    by_cases kept : later.all (l.sees · a) = true
    · by_cases seen : l.sees b a = true
      · simp [kept, seen]
      · simp [kept, seen]
    · simp [kept]

theorem policy_isSafe (tier tier' : Tier) (now : Instant) :
    (l.isSafe tier now).2.policy tier' = l.policy tier' := by
  cases tier' <;> rfl

theorem policy_after (tier : Tier) : (l.after arrivals).policy tier = l.policy tier := by
  induction arrivals using List.reverseRecOn with
  | nil => rfl
  | append_singleton earlier b ih =>
    rw [after, List.foldl_append]
    exact (policy_isSafe _ _ _).trans ih

theorem isSafe_of_hits {m : Limiter} (policies : ∀ tier, m.policy tier = l.policy tier)
    (hits : m.hits = earlier.map (·.instant))
    (past : ∀ x ∈ earlier ++ [b], x.instant ≤ b.instant) :
    let kept := (earlier ++ [b]).filter (l.sees b)
    m.isSafe b.tier b.instant =
      (decide (kept.length ≤ (l.policy b.tier).admitted),
        { m with hits := kept.map (·.instant) }) := by
  intro kept
  have covered : (m.hits ++ [b.instant]).filter ((m.policy b.tier).covers b.instant) =
      kept.map (·.instant) := by
    rw [hits, policies, ← List.map_singleton, ← List.map_append, List.filter_map]
    exact congrArg _
      (List.filter_congr fun x member => WindowPolicy.covers_eq_spans (past x member))
  rw [isSafe_eq, covered, policies, List.length_map]

theorem hits_after (empty : l.hits = []) (positive : ∀ tier, 0 < (l.policy tier).window)
    (ordered : InOrder arrivals) :
    (l.after arrivals).hits = (l.recalled arrivals).map (·.instant) := by
  induction arrivals using List.reverseRecOn with
  | nil => exact empty
  | append_singleton earlier b ih =>
    have old : InOrder earlier := (List.pairwise_append.mp ordered).1
    have known : ∀ x ∈ l.recalled earlier ++ [b], x.instant ≤ b.instant := fun x member =>
      InOrder.le_last ordered ((recalled_sublist.append_right [b]).subset member)
    rw [recalled_concat (positive b.tier), after, List.foldl_append]
    exact congrArg (·.2.hits) (isSafe_of_hits (fun _ => policy_after _) (ih old) known)

theorem isSafe_after (empty : l.hits = []) (positive : ∀ tier, 0 < (l.policy tier).window)
    (ordered : InOrder (earlier ++ [a])) :
    ((l.after earlier).isSafe a.tier a.instant).1 =
      decide ((l.recalled (earlier ++ [a])).length ≤ (l.policy a.tier).admitted) := by
  have old : InOrder earlier := (List.pairwise_append.mp ordered).1
  have known : ∀ x ∈ l.recalled earlier ++ [a], x.instant ≤ a.instant := fun x member =>
    InOrder.le_last ordered ((recalled_sublist.append_right [a]).subset member)
  rw [recalled_concat (positive a.tier),
    isSafe_of_hits (fun _ => policy_after _) (hits_after empty positive old) known]

theorem recalled_eq_filter (positive : ∀ tier, 0 < (l.policy tier).window)
    (ordered : InOrder (earlier ++ [a]))
    (window : (l.policy a.tier).window ≤ (l.policy a.tier.other).window) :
    l.recalled (earlier ++ [a]) = (earlier ++ [a]).filter (l.sees a) := by
  have shortest : ∀ tier, (l.policy a.tier).window ≤ (l.policy tier).window := by
    intro tier
    by_cases same : tier = a.tier
    · exact Nat.le_of_eq (by rw [same])
    · rw [Tier.eq_other same]
      exact window
  induction earlier with
  | nil => simp [recalled, sees_self (positive a.tier)]
  | cons x later ih =>
    obtain ⟨past, rest⟩ := List.pairwise_cons.mp ordered
    rw [List.cons_append, recalled, List.filter_cons, ih rest]
    by_cases seen : l.sees a x = true
    · have kept : (later ++ [a]).all (l.sees · x) = true := by
        refine List.all_eq_true.mpr fun b member => ?_
        exact sees_of_le (past b member) (InOrder.le_last rest member) (shortest _) seen
      simp only [kept, seen, if_true]
    · have lost : ¬ (later ++ [a]).all (l.sees · x) = true := fun all =>
        seen (List.all_eq_true.mp all a (List.mem_append_right _ (List.mem_singleton_self a)))
      simp only [lost, seen]

/-- A call of either tier is answered by the arrivals that are recalled, itself among them. Its own
window has seen no fewer, and no more where the window of the other tier is not the shorter one. -/
theorem tiers_answer_by_recall (anonymous authenticated : WindowPolicy) (pause : Duration)
    (positive : 0 < anonymous.window ∧ 0 < authenticated.window) (earlier : List Arrival)
    (a : Arrival) (ordered : InOrder (earlier ++ [a])) :
    let l : Limiter := { anonymous, authenticated, pause }
    let p := l.policy a.tier
    let answer := ((l.after earlier).isSafe a.tier a.instant).1
    let seen := (earlier ++ [a]).filter fun x => p.spans a.instant x.instant
    let recalled := l.recalled (earlier ++ [a])
    (l.after (earlier ++ [a])).hits = recalled.map (·.instant) ∧ recalled.Sublist seen ∧
      (answer = true ↔ recalled.length ≤ max 1 p.maximum) ∧
      (seen.length ≤ max 1 p.maximum → answer = true) ∧
      (p.window ≤ (l.policy a.tier.other).window →
        recalled = seen ∧ (answer = true ↔ seen.length ≤ max 1 p.maximum)) := by
  intro l p answer seen recalled
  have windows : ∀ tier, 0 < (l.policy tier).window := by
    intro tier
    cases tier with
    | anonymous => exact positive.1
    | authenticated => exact positive.2
  have part : recalled.Sublist seen := by
    have cut : recalled = (l.recalled earlier ++ [a]).filter (l.sees a) :=
      recalled_concat (windows a.tier)
    rw [cut]
    exact (recalled_sublist.append_right [a]).filter (l.sees a)
  have exactly : answer = true ↔ recalled.length ≤ max 1 p.maximum := by
    have counts : answer = decide (recalled.length ≤ p.admitted) :=
      isSafe_after rfl windows ordered
    rw [counts, decide_eq_true_eq, WindowPolicy.admitted]
  refine ⟨hits_after rfl windows ordered, part, exactly, ?_, ?_⟩
  · intro fits
    exact exactly.mpr (Nat.le_trans part.length_le fits)
  · intro window
    have same : recalled = seen := recalled_eq_filter windows ordered window
    exact ⟨same, same ▸ exactly⟩

def lopsided : Limiter :=
  { anonymous := .of 1 (.ofSeconds 1), authenticated := .of 2 (.ofSeconds 10),
    pause := .ofSeconds 1 }

def crossing : List Arrival :=
  [⟨.authenticated, 0⟩, ⟨.anonymous, Duration.ofSeconds 5⟩,
    ⟨.authenticated, Duration.ofSeconds 6⟩]

/-- An anonymous call takes an attempt out of the other tier's sight, and one too many of that tier
is admitted. -/
theorem short_window_clears_the_list :
    let earlier : List Arrival := crossing.take 2
    let a : Arrival := ⟨.authenticated, Duration.ofSeconds 6⟩
    crossing = earlier ++ [a] ∧ InOrder crossing ∧
      ofTiers? lopsided.anonymous lopsided.authenticated = some lopsided ∧
      ((lopsided.after earlier).isSafe a.tier a.instant).1 = true ∧
      ¬ (crossing.filter fun x => lopsided.authenticated.spans a.instant x.instant).length ≤
        max 1 lopsided.authenticated.maximum :=
  ⟨rfl, by decide, rfl, rfl, by decide⟩

theorem crossing_tiers_answer_by_recall :
    let a : Arrival := ⟨.authenticated, Duration.ofSeconds 6⟩
    (0 < lopsided.anonymous.window ∧ 0 < lopsided.authenticated.window) ∧ InOrder crossing ∧
      (lopsided.recalled crossing).length = 2 ∧
      (((lopsided.after (crossing.take 2)).isSafe a.tier a.instant).1 = true ↔
        (lopsided.recalled crossing).length ≤ max 1 lopsided.authenticated.maximum) := by
  refine ⟨by decide, by decide, by decide, ?_⟩
  exact (tiers_answer_by_recall _ _ _ (by decide) (crossing.take 2)
    ⟨.authenticated, Duration.ofSeconds 6⟩ (by decide)).2.2.1

end Limiter

end PriceDesk
