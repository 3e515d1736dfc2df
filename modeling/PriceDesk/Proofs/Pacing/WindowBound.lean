import Mathlib.Data.List.Induction
import PriceDesk.Proofs.Pacing.Crowd

namespace PriceDesk

namespace WindowPolicy

variable {p : WindowPolicy} {now later a : Instant} {as : List Instant} {q : Instant → Bool}

def spans (p : WindowPolicy) (now a : Instant) : Bool := a ≤ now && now < a + p.window

def spansPast (p : WindowPolicy) (late : Duration) (now a : Instant) : Bool :=
  a ≤ now + late && now < a + p.window

def shortened (p : WindowPolicy) (d : Duration) : WindowPolicy := { p with window := p.window - d }

theorem admitted_pos (p : WindowPolicy) : 0 < p.admitted := Nat.le_max_left 1 _

theorem covers_iff : p.covers now a = true ↔ 0 < p.window ∧ now < a + p.window := by
  have arithmetic : ∀ n h w : Nat, n - h < w ↔ 0 < w ∧ n < h + w := by omega
  rw [covers, decide_eq_true_eq]
  exact arithmetic now a p.window

theorem covers_eq_spans (past : a ≤ now) : p.covers now a = p.spans now a := by
  simp only [covers, spans, past, decide_true, Bool.true_and, decide_eq_decide]
  exact Nat.sub_lt_iff_lt_add' past

theorem covers_of_le (le : now ≤ later) (covered : p.covers later a = true) :
    p.covers now a = true := by
  simp only [covers, decide_eq_true_eq] at covered ⊢
  exact Nat.lt_of_le_of_lt (Nat.sub_le_sub_right le a) covered

def kept (p : WindowPolicy) (as : List Instant) : List Instant :=
  as.foldl (fun hits a => (hits ++ [a]).filter (p.covers a)) []

theorem kept_concat : p.kept (as ++ [a]) = (p.kept as ++ [a]).filter (p.covers a) := by
  rw [kept, List.foldl_append]
  rfl

theorem kept_sublist : (p.kept as).Sublist as := by
  induction as using List.reverseRecOn with
  | nil => exact .slnil
  | append_singleton as a ih =>
    rw [kept_concat]
    exact List.filter_sublist.trans (ih.append_right [a])

theorem filter_kept (seen : ∀ c ∈ as, ∀ b, q b = true → p.covers c b = true) :
    (p.kept as).filter q = as.filter q := by
  induction as using List.reverseRecOn with
  | nil => rfl
  | append_singleton as a ih =>
    have absorbs (b : Instant) : (q b && p.covers a b) = q b := by
      cases chosen : q b with
      | false => rfl
      | true => exact seen a (List.mem_append_right _ List.mem_cons_self) b chosen
    rw [kept_concat, List.filter_filter, List.filter_congr fun b _ => absorbs b,
      List.filter_append, List.filter_append,
      ih fun c member => seen c (List.mem_append_left _ member)]

theorem countP_le_kept (seen : ∀ c ∈ as, ∀ b, q b = true → p.covers c b = true) :
    as.countP q ≤ (p.kept as).length := by
  rw [List.countP_eq_length_filter, ← filter_kept seen]
  exact List.length_filter_le _ _

theorem kept_le_countP (counts : ∀ b ∈ as ++ [a], p.covers a b = true → q b = true) :
    (p.kept (as ++ [a])).length ≤ (as ++ [a]).countP q := by
  rw [kept_concat, ← List.countP_eq_length_filter]
  calc (p.kept as ++ [a]).countP (p.covers a)
      ≤ (as ++ [a]).countP (p.covers a) := (kept_sublist.append_right [a]).countP_le
    _ ≤ (as ++ [a]).countP q := List.countP_mono_left counts

end WindowPolicy

theorem Limiter.isSafe_eq (l : Limiter) (tier : Tier) (now : Instant) :
    let kept := (l.hits ++ [now]).filter ((l.policy tier).covers now)
    l.isSafe tier now =
      (decide (kept.length ≤ (l.policy tier).admitted), { l with hits := kept }) := by
  cases tier <;> rfl

theorem Limiter.filter_hits_isSafe (l : Limiter) (tier : Tier) {now later : Instant}
    (le : now ≤ later) :
    (l.isSafe tier now).2.hits.filter ((l.policy tier).covers later) =
      (l.hits ++ [now]).filter ((l.policy tier).covers later) := by
  have absorbs : ∀ a, ((l.policy tier).covers later a && (l.policy tier).covers now a) =
      (l.policy tier).covers later a := by
    intro a
    cases covered : (l.policy tier).covers later a with
    | false => rfl
    | true => exact WindowPolicy.covers_of_le le covered
  simp only [isSafe_eq, List.filter_filter, absorbs]

namespace Crowd

variable {tier : Tier} {p : WindowPolicy} {c : Crowd Limiter} {tries : List Try}

def Lagging (late : Duration) (tries : List Try) : Prop :=
  tries.Pairwise fun b a => b.instant ≤ a.instant + late

def Answered (p : WindowPolicy) (tries : List Try) : Prop :=
  ∀ earlier a later, tries = earlier ++ a :: later →
    (a.safe = true ↔ (p.kept ((earlier ++ [a]).map (·.instant))).length ≤ p.admitted)

structure Kept (tier : Tier) (p : WindowPolicy) (c : Crowd Limiter) (tries : List Try) :
    Prop where
  policy : c.state.policy tier = p
  hits : c.state.hits = p.kept (tries.map (·.instant))
  answered : Answered p tries
  admitted : ∀ q, c.callers.countP (·.isAdmittedAt q) = tries.countP fun a => a.safe && q a.instant
  read : ∀ caller ∈ c.callers, caller.HasReadBy c.now
  past : ∀ a ∈ tries, a.instant ≤ a.turn ∧ a.turn ≤ c.now
  turns : tries.Pairwise (·.turn ≤ ·.turn)

theorem Answered.concat {a : Try} (answered : Answered p tries)
    (told : a.safe = true ↔
      (p.kept ((tries ++ [a]).map (·.instant))).length ≤ p.admitted) :
    Answered p (tries ++ [a]) := by
  intro earlier b later split
  rcases List.eq_nil_or_concat later with rfl | ⟨rest, x, rfl⟩
  · obtain ⟨rfl, same⟩ := List.append_inj' split rfl
    cases same
    exact told
  · rw [List.concat_eq_append, ← List.cons_append, ← List.append_assoc] at split
    exact answered earlier b rest (List.append_inj' split rfl).1

namespace Kept

theorem fresh (l : Limiter) (start : Instant) (empty : l.hits = []) :
    Kept tier (l.policy tier) { now := start, state := l } [] where
  policy := rfl
  hits := empty
  answered earlier a later split := by simp at split
  admitted _ := rfl
  read := nofun
  past := nofun
  turns := .nil

theorem pass (kept : Kept tier p c tries) (d : Duration) :
    Kept tier p { c with now := c.now + d } tries :=
  { kept with
    read := fun caller member => (kept.read caller member).mono (Nat.le_add_right _ _)
    past := fun a member =>
      ⟨(kept.past a member).1, Nat.le_add_right_of_le (kept.past a member).2⟩ }

theorem arrive (kept : Kept tier p c tries) :
    Kept tier p { c with callers := c.callers ++ [.asking] } tries :=
  { kept with
    admitted := fun q => by
      rw [List.countP_append, kept.admitted q]
      rfl
    read := fun caller member => by
      rcases List.mem_append.mp member with old | new
      · exact kept.read caller old
      · cases List.mem_singleton.mp new
        trivial }

theorem told (kept : Kept tier p c tries) (read : Instant) :
    c.state.isSafe tier read =
      (decide ((p.kept (tries.map (·.instant) ++ [read])).length ≤ p.admitted),
        { c.state with hits := p.kept (tries.map (·.instant) ++ [read]) }) := by
  rw [Limiter.isSafe_eq, kept.policy, kept.hits, ← WindowPolicy.kept_concat]

theorem move (kept : Kept tier p c tries) {i : Nat} {caller : Throttle}
    (there : c.callers[i]? = some caller) (other : ∀ read, caller ≠ .trying read) :
    Kept tier p
      { c with
        callers := c.callers.set i (caller.step Limiter.gauge tier c.now c.state).1
        state := (caller.step Limiter.gauge tier c.now c.state).2 } tries := by
  obtain ⟨below, rfl⟩ := List.getElem?_eq_some_iff.mp there
  obtain ⟨state, same⟩ := Throttle.step_of_ne_trying tier c.now c.state other
  rw [state]
  refine { kept with admitted := fun q => ?_, read := fun caller member => ?_ }
  · rw [List.countP_set below, same, Nat.sub_add_cancel (List.boole_getElem_le_countP below)]
    exact kept.admitted q
  · rcases List.mem_or_eq_of_mem_set member with old | rfl
    · exact kept.read caller old
    · exact (kept.read _ (List.getElem_mem below)).step

theorem attempt (kept : Kept tier p c tries) {i : Nat} {read : Instant}
    (there : c.callers[i]? = some (.trying read)) :
    Kept tier p
      { c with
        callers := c.callers.set i (Throttle.attempt Limiter.gauge tier read c.now c.state).1
        state := (Throttle.attempt Limiter.gauge tier read c.now c.state).2 }
      (tries ++ [⟨read, c.now, (c.state.isSafe tier read).1⟩]) := by
  obtain ⟨below, here⟩ := List.getElem?_eq_some_iff.mp there
  have past : (Throttle.trying read).HasReadBy c.now := here ▸ kept.read _ (List.getElem_mem below)
  obtain ⟨state, admitted⟩ := Throttle.attempt_gauge tier read c.now c.state
  rw [state]
  constructor
  case policy =>
    rw [← kept.policy]
    cases tier <;> rfl
  case hits =>
    rw [kept.told, List.map_append]
    rfl
  case answered =>
    refine kept.answered.concat ?_
    rw [kept.told, List.map_append]
    exact decide_eq_true_iff
  case admitted =>
    intro q
    rw [List.countP_set below, here, admitted, List.countP_append, List.countP_singleton,
      ← kept.admitted]
    rfl
  case read =>
    intro caller member
    rcases List.mem_or_eq_of_mem_set member with old | rfl
    · exact kept.read caller old
    · exact past.step
  case past =>
    intro a member
    rcases List.mem_append.mp member with old | new
    · exact kept.past a old
    · cases List.mem_singleton.mp new
      exact ⟨past, Nat.le_refl _⟩
  case turns =>
    refine List.pairwise_append.mpr ⟨kept.turns, List.pairwise_singleton _ _, ?_⟩
    intro a old b new
    cases List.mem_singleton.mp new
    exact (kept.past a old).2

theorem step (kept : Kept tier p c tries) (event : Event) :
    Kept tier p (c.step Limiter.gauge tier event) (tries ++ c.tried Limiter.gauge tier event) := by
  cases event with
  | arrive =>
    rw [tried, List.append_nil]
    exact kept.arrive
  | pass d =>
    rw [tried, List.append_nil]
    exact kept.pass d
  | move i =>
    simp only [Crowd.step, tried]
    cases there : c.callers[i]? with
    | none =>
      rw [List.append_nil]
      exact kept
    | some caller =>
      cases caller with
      | trying read => exact kept.attempt there
      | asking | reckoning _ | waiting _ | resting _ | admitted _ | lost =>
        rw [List.append_nil]
        exact kept.move there nofun

theorem after (kept : Kept tier p c tries) (events : List Event) :
    Kept tier p (c.after Limiter.gauge tier events)
      (tries ++ Crowd.tries Limiter.gauge tier events c) := by
  induction events generalizing c tries with
  | nil =>
    rw [Crowd.tries, List.append_nil]
    exact kept
  | cons event events ih =>
    rw [Crowd.tries, ← List.append_assoc]
    exact ih (kept.step event)

theorem lagging (kept : Kept tier p c tries) {late : Duration}
    (soon : ∀ a ∈ tries, a.turn ≤ a.instant + late) : Lagging late tries :=
  kept.turns.imp_of_mem fun {b a} earlier member inTurn =>
    calc b.instant
        ≤ b.turn := (kept.past b earlier).1
      _ ≤ a.turn := inTurn
      _ ≤ a.instant + late := soon a member

end Kept

variable {late : Duration} {a : Try}

theorem Lagging.le_last (lagging : Lagging late (tries ++ [a])) {b : Try}
    (member : b ∈ tries ++ [a]) : b.instant ≤ a.instant + late := by
  rcases List.mem_append.mp member with earlier | last
  · exact (List.pairwise_append.mp lagging).2.2 b earlier a List.mem_cons_self
  · cases List.mem_singleton.mp last
    exact Nat.le_add_right _ _

theorem Lagging.spans_le_kept (lagging : Lagging late (tries ++ [a])) {t : Instant}
    (inside : a.instant ≤ t) :
    (tries ++ [a]).countP (fun b => (p.shortened late).spans t b.instant) ≤
      (p.kept ((tries ++ [a]).map (·.instant))).length := by
  have seen : ∀ c ∈ (tries ++ [a]).map (·.instant), ∀ b, (p.shortened late).spans t b = true →
      p.covers c b = true := by
    intro c member b spanned
    obtain ⟨x, attempted, rfl⟩ := List.mem_map.mp member
    have close := lagging.le_last attempted
    obtain ⟨past, ends⟩ := Bool.and_eq_true_iff.mp spanned
    have arithmetic : ∀ x a t b d w : Nat, x ≤ a + d → a ≤ t → b ≤ t → t < b + (w - d) →
        x - b < w := by omega
    exact decide_eq_true (arithmetic _ _ _ _ _ _ close inside (of_decide_eq_true past)
      (of_decide_eq_true ends))
  have counted := WindowPolicy.countP_le_kept seen
  rwa [List.countP_map] at counted

theorem Lagging.kept_le_spansPast (lagging : Lagging late (tries ++ [a])) :
    (p.kept ((tries ++ [a]).map (·.instant))).length ≤
      (tries ++ [a]).countP fun b => p.spansPast late a.instant b.instant := by
  have counts : ∀ b ∈ tries.map (·.instant) ++ [a.instant], p.covers a.instant b = true →
      p.spansPast late a.instant b = true := by
    intro b member covered
    rw [← List.map_singleton, ← List.map_append] at member
    obtain ⟨x, attempted, rfl⟩ := List.mem_map.mp member
    simp only [WindowPolicy.spansPast, Bool.and_eq_true, decide_eq_true_eq]
    exact ⟨lagging.le_last attempted, (WindowPolicy.covers_iff.mp covered).2⟩
  have counted := WindowPolicy.kept_le_countP counts
  rwa [← List.map_singleton, ← List.map_append, List.countP_map] at counted

theorem Answered.earlier (answered : Answered p (tries ++ [a])) : Answered p tries := by
  rintro before b later rfl
  refine answered before b (later ++ [a]) ?_
  rw [List.append_assoc, List.cons_append]

theorem Answered.bound (answered : Answered p tries) (lagging : Lagging late tries) (t : Instant) :
    tries.countP (fun a => a.safe && (p.shortened late).spans t a.instant) ≤ p.admitted := by
  induction tries using List.reverseRecOn with
  | nil => exact Nat.zero_le _
  | append_singleton tries a ih =>
    cases counts : a.safe && (p.shortened late).spans t a.instant with
    | false =>
      rw [List.countP_append, List.countP_singleton, counts]
      exact ih answered.earlier (List.pairwise_append.mp lagging).1
    | true =>
      obtain ⟨safe, spanned⟩ := Bool.and_eq_true_iff.mp counts
      simp only [WindowPolicy.spans, Bool.and_eq_true, decide_eq_true_eq] at spanned
      calc (tries ++ [a]).countP (fun b => b.safe && (p.shortened late).spans t b.instant)
          ≤ (tries ++ [a]).countP (fun b => (p.shortened late).spans t b.instant) :=
            List.countP_mono_left fun b _ both => (Bool.and_eq_true_iff.mp both).2
        _ ≤ (p.kept ((tries ++ [a]).map (·.instant))).length := lagging.spans_le_kept spanned.1
        _ ≤ p.admitted := (answered tries a [] rfl).mp safe

/-- Of the callers of one tier that share a fresh limiter, no more are admitted in a window than
the policy allows, if the window is shortened by what an attempt may lag; and an attempt is rejected
only if too many were made in its window and that much later. Attempts that have their turns in the
order in which they read the clock do not lag. -/
theorem crowd_keeps_window (anonymous authenticated : WindowPolicy) (pause : Duration)
    (tier : Tier) (start : Instant) (events : List Event) (late : Duration)
    (lagging : Lagging late (Crowd.tries Limiter.gauge tier events
      { now := start, state := { anonymous, authenticated, pause } })) :
    let first : Crowd Limiter := { now := start, state := { anonymous, authenticated, pause } }
    let p := first.state.policy tier
    let c := first.after Limiter.gauge tier events
    let tries := Crowd.tries Limiter.gauge tier events first
    (∀ q, c.callers.countP (·.isAdmittedAt q) = tries.countP fun a => a.safe && q a.instant) ∧
      (∀ t, c.callers.countP (·.isAdmittedAt ((p.shortened late).spans t)) ≤ max 1 p.maximum) ∧
      (∀ earlier a later, tries = earlier ++ a :: later →
        (a.safe = true →
          (earlier ++ [a]).countP (fun b => (p.shortened late).spans a.instant b.instant) ≤
            max 1 p.maximum) ∧
        ((earlier ++ [a]).countP (fun b => p.spansPast late a.instant b.instant) ≤
          max 1 p.maximum → a.safe = true)) ∧
      ∀ d, (∀ a ∈ tries, a.turn ≤ a.instant + d) → Lagging d tries := by
  intro first p c tries
  have kept : Kept tier p c tries := (Kept.fresh first.state start rfl).after events
  refine ⟨kept.admitted, fun t => ?_, fun earlier a later split => ?_, fun d => kept.lagging⟩
  · rw [kept.admitted]
    exact kept.answered.bound lagging t
  · have upTo : Lagging late (earlier ++ [a]) := by
      refine lagging.sublist (List.IsPrefix.sublist ⟨later, ?_⟩)
      rw [List.append_assoc, List.singleton_append]
      exact split.symm
    have answer := kept.answered earlier a later split
    exact ⟨fun safe => Nat.le_trans (upTo.spans_le_kept (Nat.le_refl _)) (answer.mp safe),
      fun few => answer.mpr (Nat.le_trans upTo.kept_le_spansPast few)⟩

/-- Two callers are admitted, and of two more that come later the first to read the clock is the
last to have its turn. -/
def overtaking : List Event :=
  [.arrive, .arrive, .arrive, .arrive, .move 2, .move 2, .move 3, .move 3,
    .move 0, .move 0, .move 0, .move 0, .move 1, .move 1, .move 1, .move 1,
    .pass 9, .move 2, .pass 1, .move 3, .move 3, .move 2]

def pairLimiter : Limiter :=
  { anonymous := .of 2 10, authenticated := .of 2 10, pause := .ofMillis 50 }

theorem overtaken_caller_keeps_shortened_window :
    let first : Crowd Limiter := { now := 0, state := pairLimiter }
    let c := first.after Limiter.gauge .anonymous overtaking
    Lagging 1 (Crowd.tries Limiter.gauge .anonymous overtaking first) ∧
      ∀ t, c.callers.countP (·.isAdmittedAt ((pairLimiter.anonymous.shortened 1).spans t)) ≤ 2 := by
  have lagging : Lagging 1 (Crowd.tries Limiter.gauge .anonymous overtaking
      { now := 0, state := pairLimiter }) := by
    unfold Lagging
    decide +kernel
  exact ⟨lagging, (crowd_keeps_window _ _ _ .anonymous 0 overtaking 1 lagging).2.1⟩

/-- The caller that is overtaken is one too many in its window. -/
theorem overtaken_caller_is_one_too_many :
    let first : Crowd Limiter := { now := 0, state := pairLimiter }
    let c := first.after Limiter.gauge .anonymous overtaking
    ¬ c.callers.countP (·.isAdmittedAt (pairLimiter.anonymous.spans 9)) ≤
      max 1 pairLimiter.anonymous.maximum := by
  decide +kernel

end Crowd

end PriceDesk
