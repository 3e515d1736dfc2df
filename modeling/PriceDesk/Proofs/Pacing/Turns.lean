import PriceDesk.Proofs.Pacing.Threshold

namespace PriceDesk

/-- A gauge whose states show those of another one, with the same answers. -/
structure Gauge.Over {τ σ : Type} (g : Gauge τ) (h : Gauge σ) (shown : τ → σ) : Prop where
  timeUntilSafe? : ∀ tier now t, h.timeUntilSafe? tier now (shown t) =
    ((g.timeUntilSafe? tier now t).1, shown (g.timeUntilSafe? tier now t).2)
  isSafe : ∀ tier now t, h.isSafe tier now (shown t) =
    ((g.isSafe tier now t).1, shown (g.isSafe tier now t).2)
  rest : ∀ t, h.rest (shown t) = ((g.rest t).1, shown (g.rest t).2)

inductive Question where
  | wait (at_ : Instant)
  | attempt (at_ : Instant) (safe : Bool)
  | rest

def Gauge.traced {σ : Type} (g : Gauge σ) : Gauge (σ × List Question) where
  timeUntilSafe? tier now s :=
    let (wait, state) := g.timeUntilSafe? tier now s.1
    (wait, state, s.2 ++ [.wait now])
  isSafe tier now s :=
    let (safe, state) := g.isSafe tier now s.1
    (safe, state, s.2 ++ [.attempt now safe])
  rest s :=
    let (pause, state) := g.rest s.1
    (pause, state, s.2 ++ [.rest])

theorem Gauge.traced_over {σ : Type} (g : Gauge σ) : g.traced.Over g Prod.fst where
  timeUntilSafe? _ _ _ := rfl
  isSafe _ _ _ := rfl
  rest _ := rfl

structure Turn where
  arrival : Instant
  admitted : Instant

def Turn.questions (t : Turn) : List Question := [.wait t.arrival, .attempt t.admitted true]

namespace Throttle

variable {σ τ : Type}

/-- Calls of one tier, each one a gap of time after the one before it was admitted, and where the
first call stands that is not admitted after so many moves. -/
def turns (g : Gauge σ) (tier : Tier) (moves : Nat) :
    List Duration → Instant → σ → List Turn × Option Throttle × σ
  | [], _, s => ([], none, s)
  | gap :: gaps, now, s =>
    match run g tier moves .asking (now + gap) s with
    | (.admitted entry, _, s) =>
      let (later, stage, s) := turns g tier moves gaps entry s
      (⟨now + gap, entry⟩ :: later, stage, s)
    | (stage, _, s) => ([], some stage, s)

section Over

variable {g : Gauge τ} {h : Gauge σ} {shown : τ → σ} (shows : g.Over h shown) (tier : Tier)
include shows

theorem step_over (now : Instant) (t : τ) (caller : Throttle) :
    caller.step h tier now (shown t) =
      ((caller.step g tier now t).1, shown (caller.step g tier now t).2) := by
  cases caller with
  | asking | admitted _ | lost | waiting _ | resting _ => rfl
  | reckoning read =>
    simp only [step, reckon, shows.timeUntilSafe?]
    cases g.timeUntilSafe? tier read t with
    | mk wait t' => cases wait <;> rfl
  | trying read =>
    simp only [step, attempt, shows.isSafe]
    cases g.isSafe tier read t with
    | mk safe t' =>
      cases safe with
      | true => rfl
      | false => simp only [shows.rest]

theorem run_over (moves : Nat) (caller : Throttle) (now : Instant) (t : τ) :
    run h tier moves caller now (shown t) =
      ((run g tier moves caller now t).1, (run g tier moves caller now t).2.1,
        shown (run g tier moves caller now t).2.2) := by
  induction moves generalizing caller now t with
  | zero => rfl
  | succ moves ih => simp only [run, step_over shows, ih]

theorem turns_over (moves : Nat) (gaps : List Duration) (now : Instant) (t : τ) :
    turns h tier moves gaps now (shown t) =
      ((turns g tier moves gaps now t).1, (turns g tier moves gaps now t).2.1,
        shown (turns g tier moves gaps now t).2.2) := by
  induction gaps generalizing now t with
  | nil => rfl
  | cons gap gaps ih =>
    simp only [turns, run_over shows]
    cases run g tier moves .asking (now + gap) t with
    | mk stage rest =>
      cases stage with
      | admitted entry => simp only [ih]
      | asking | reckoning _ | waiting _ | trying _ | resting _ | lost => rfl

end Over

variable {g : Gauge σ} {tier : Tier} {now : Instant} {s s' : σ}

theorem run_succ (moves : Nat) (stage : Throttle) :
    run g tier (moves + 1) stage now s =
      run g tier moves (stage.step g tier (stage.wake now) s).1 (stage.wake now)
        (stage.step g tier (stage.wake now) s).2 := rfl

theorem run_admitted (moves : Nat) (t : Instant) :
    run g tier moves (.admitted t) now s = (.admitted t, now, s) := by
  induction moves with
  | zero => rfl
  | succ moves ih => exact ih

theorem run_lost (moves : Nat) : run g tier moves .lost now s = (.lost, now, s) := by
  induction moves with
  | zero => rfl
  | succ moves ih => exact ih

theorem run_traced_of_safe {wait : Duration} (told : g.timeUntilSafe? tier now s = (some wait, s))
    (safe : g.isSafe tier (now + wait) s = (true, s')) (moves : Nat) (trace : List Question) :
    run g.traced tier (moves + 4) .asking now (s, trace) =
      (.admitted (now + wait), now + wait, s',
        trace ++ Turn.questions ⟨now, now + wait⟩) := by
  have wakes : wake now (.waiting (now + wait)) = now + wait :=
    Nat.max_eq_right (Nat.le_add_right now wait)
  have reckons : reckon g.traced tier now now (s, trace) =
      (.waiting (now + wait), s, trace ++ [.wait now]) := by
    simp only [reckon, Gauge.traced, told]
  have attempts : attempt g.traced tier (now + wait) (now + wait) (s, trace ++ [.wait now]) =
      (.admitted (now + wait), s', trace ++ Turn.questions ⟨now, now + wait⟩) := by
    simp only [attempt, Gauge.traced, safe, List.append_assoc]
    rfl
  have asked : run g.traced tier (moves + 4) .asking now (s, trace) =
      run g.traced tier (moves + 2) (.waiting (now + wait)) now (s, trace ++ [.wait now]) := by
    rw [run_succ, run_succ]
    simp only [step, wake, reckons]
  have tried : run g.traced tier (moves + 2) (.waiting (now + wait)) now
      (s, trace ++ [.wait now]) = run g.traced tier moves (.admitted (now + wait)) (now + wait)
        (s', trace ++ Turn.questions ⟨now, now + wait⟩) := by
    have ready : step g.traced tier (now + wait) (s, trace ++ [.wait now])
        (.waiting (now + wait)) = (.trying (now + wait), s, trace ++ [.wait now]) := by
      simp only [step, Nat.le_refl, if_true]
    rw [run_succ, wakes, ready, run_succ]
    simp only [step, wake, attempts]
  rw [asked, tried, run_admitted]

theorem run_traced_of_untold (untold : g.timeUntilSafe? tier now s = (none, s)) (moves : Nat)
    (trace : List Question) :
    run g.traced tier (moves + 4) .asking now (s, trace) =
      (.lost, now, s, trace ++ [.wait now]) := by
  have reckons : reckon g.traced tier now now (s, trace) = (.lost, s, trace ++ [.wait now]) := by
    simp only [reckon, Gauge.traced, untold]
  have asked : run g.traced tier (moves + 4) .asking now (s, trace) =
      run g.traced tier (moves + 2) .lost now (s, trace ++ [.wait now]) := by
    rw [run_succ, run_succ]
    simp only [step, wake, reckons]
  rw [asked, run_lost]

end Throttle

namespace Limiter

variable {l : Limiter} {tier : Tier} {p : WindowPolicy} {now later : Instant}
  {admitted : List Instant}

/-- The limiter has admitted these callers, the first one first, and has forgotten none that a
window from now on covers. -/
structure Recalls (l : Limiter) (tier : Tier) (p : WindowPolicy) (now : Instant)
    (admitted : List Instant) : Prop where
  policy : l.policy tier = p
  ordered : admitted.Pairwise (· ≤ ·)
  past : ∀ a ∈ admitted, a ≤ now
  hits : ∀ t, now ≤ t → l.hits.filter (p.covers t) = admitted.filter (p.covers t)

/-- A call is admitted on arrival, or, where earlier calls fill a window, as soon as the one of
them that has to leave it does. -/
def Prompt (p : WindowPolicy) (earlier : List Instant) (turn : Turn) : Prop :=
  (earlier.length < max 1 p.maximum → turn.admitted = turn.arrival) ∧
    (max 1 p.maximum ≤ earlier.length →
      ∃ filling, earlier[earlier.length - max 1 p.maximum]? = some filling ∧
        turn.admitted = max turn.arrival (filling + p.window))

def Stuck (p : WindowPolicy) (earlier : List Instant) (arrival : Instant) : Prop :=
  max 1 p.maximum ≤ earlier.length ∧
    ∃ filling, earlier[earlier.length - max 1 p.maximum]? = some filling ∧
      arrival < filling + p.window ∧ Instant.limit ≤ filling + p.window

namespace Recalls

theorem fresh (empty : l.hits = []) (now : Instant) : l.Recalls tier (l.policy tier) now [] where
  policy := rfl
  ordered := .nil
  past := by simp
  hits := by simp [empty]

theorem wait (recalls : l.Recalls tier p now admitted) (le : now ≤ later) :
    l.Recalls tier p later admitted where
  policy := recalls.policy
  ordered := recalls.ordered
  past a member := Nat.le_trans (recalls.past a member) le
  hits t after := recalls.hits t (Nat.le_trans le after)

theorem attempt (recalls : l.Recalls tier p now admitted) :
    (l.isSafe tier now).2.Recalls tier p now (admitted ++ [now]) where
  policy := (policy_isSafe tier tier now).trans recalls.policy
  ordered := by
    refine List.pairwise_append.mpr ⟨recalls.ordered, List.pairwise_singleton _ _, ?_⟩
    intro a member b last
    cases List.mem_singleton.mp last
    exact recalls.past a member
  past := by
    intro a member
    rcases List.mem_append.mp member with earlier | last
    · exact recalls.past a earlier
    · exact Nat.le_of_eq (List.mem_singleton.mp last)
  hits := by
    intro t after
    have keeps := l.filter_hits_isSafe tier after
    rw [recalls.policy] at keeps
    rw [keeps, List.filter_append, recalls.hits t after, List.filter_append]

theorem isSafe_iff (recalls : l.Recalls tier p now admitted) :
    (l.isSafe tier now).1 = true ↔ admitted.countP (p.covers now) < p.admitted := by
  rw [isSafe_iff_countP, recalls.policy, List.countP_eq_length_filter,
    recalls.hits now (Nat.le_refl now), ← List.countP_eq_length_filter]

theorem isSafe_of_room (recalls : l.Recalls tier p now admitted)
    (room : admitted.length < p.admitted) : (l.isSafe tier now).1 = true :=
  recalls.isSafe_iff.mpr (Nat.lt_of_le_of_lt List.countP_le_length room)

theorem isSafe_iff_of_filled (recalls : l.Recalls tier p now admitted) {filling : Instant}
    (crowded : p.admitted ≤ admitted.length)
    (there : admitted[admitted.length - p.admitted]? = some filling) :
    (l.isSafe tier now).1 = true ↔ filling + p.window ≤ now := by
  obtain ⟨inside, rfl⟩ := List.getElem?_eq_some_iff.mp there
  have past := recalls.past _ (List.getElem_mem inside)
  have threshold := countP_lt_iff_of_sorted (f := p.covers now) recalls.ordered
    WindowPolicy.covers_of_le_hit inside
  rw [Nat.sub_sub_self crowded, ← Bool.not_eq_true, WindowPolicy.covers_iff] at threshold
  rw [recalls.isSafe_iff, threshold, not_and, Nat.not_lt]
  refine ⟨fun expired => ?_, fun expired _ => expired⟩
  rcases Nat.eq_zero_or_pos p.window with closed | positive
  · rw [closed]
    exact past
  · exact expired positive

theorem exists_filling (crowded : p.admitted ≤ admitted.length) :
    ∃ filling, admitted[admitted.length - p.admitted]? = some filling :=
  ⟨_, List.getElem?_eq_getElem (Nat.sub_lt_of_pos_le p.admitted_pos crowded)⟩

theorem opening_eq (recalls : l.Recalls tier p now admitted) {opening filling : Instant}
    (opens : l.Opens tier now opening) (crowded : p.admitted ≤ admitted.length)
    (there : admitted[admitted.length - p.admitted]? = some filling) :
    opening = filling + p.window := by
  have same (e : Duration) : opening ≤ now + e ↔ filling + p.window ≤ now + e := by
    rw [← opens.safe]
    exact (recalls.wait (Nat.le_add_right now e)).isSafe_iff_of_filled crowded there
  have closed : now ≤ filling + p.window := by
    refine Nat.le_of_not_le fun open_ => ?_
    exact Nat.not_le.mpr opens.later ((same 0).mpr open_)
  have one := same (opening - now)
  have two := same (filling + p.window - now)
  rw [Nat.add_sub_of_le (Nat.le_of_lt opens.later)] at one
  rw [Nat.add_sub_of_le closed] at two
  exact Nat.le_antisymm (two.mpr (Nat.le_refl _)) (one.mp (Nat.le_refl _))

theorem not_room_of_opens (recalls : l.Recalls tier p now admitted) {opening : Instant}
    (opens : l.Opens tier now opening) : p.admitted ≤ admitted.length := by
  refine Nat.le_of_not_lt fun room => ?_
  exact Nat.not_le.mpr opens.later ((opens.safe 0).mp (recalls.isSafe_of_room room))

theorem prompt_of_told (recalls : l.Recalls tier p now admitted) {wait : Duration}
    (told : l.timeUntilSafe? tier now = some wait) : Prompt p admitted ⟨now, now + wait⟩ := by
  rcases free_or_opens l tier now with ⟨free, none⟩ | ⟨opening, opens⟩
  · cases told.symm.trans none
    refine ⟨fun _ => rfl, fun crowded => ?_⟩
    obtain ⟨filling, there⟩ := exists_filling crowded
    exact ⟨filling, there,
      (Nat.max_eq_left ((recalls.isSafe_iff_of_filled crowded there).mp (free 0))).symm⟩
  · have crowded := recalls.not_room_of_opens opens
    obtain ⟨filling, there⟩ := exists_filling crowded
    have same := recalls.opening_eq opens crowded there
    rw [opens.wait] at told
    split at told
    · cases told
      refine ⟨fun room => absurd room (Nat.not_lt.mpr crowded), fun _ => ⟨filling, there, ?_⟩⟩
      rw [← same, Nat.max_eq_right (Nat.le_of_lt opens.later)]
      exact Nat.add_sub_of_le (Nat.le_of_lt opens.later)
    · cases told

theorem stuck_of_untold (recalls : l.Recalls tier p now admitted)
    (untold : l.timeUntilSafe? tier now = none) : Stuck p admitted now := by
  rcases free_or_opens l tier now with ⟨-, told⟩ | ⟨opening, opens⟩
  · cases untold.symm.trans told
  · have crowded := recalls.not_room_of_opens opens
    obtain ⟨filling, there⟩ := exists_filling crowded
    have same := recalls.opening_eq opens crowded there
    rw [opens.wait] at untold
    split at untold
    · cases untold
    · next beyond =>
      exact ⟨crowded, filling, there, same ▸ opens.later, same ▸ Nat.not_lt.mp beyond⟩

end Recalls

/-- How calls fare that take turns after others were admitted: all of them are admitted promptly, or
one is lost that is stuck, and those before it are. -/
structure Fare (p : WindowPolicy) (earlier : List Instant) (now : Instant) (gaps : List Duration)
    (turns : List Turn) (stage : Option Throttle) (asked : List Question) : Prop where
  arrivals : turns.map (·.arrival) =
    (List.zipWith (· + ·) (now :: turns.map (·.admitted)) gaps).take turns.length
  prompt : ∀ k turn, turns[k]? = some turn →
    Prompt p (earlier ++ (turns.take k).map (·.admitted)) turn
  ending : (stage = none ∧ turns.length = gaps.length ∧ asked = []) ∨
    (stage = some .lost ∧ ∃ arrival,
      (List.zipWith (· + ·) (now :: turns.map (·.admitted)) gaps)[turns.length]? = some arrival ∧
      Stuck p (earlier ++ turns.map (·.admitted)) arrival ∧ asked = [.wait arrival])

namespace Fare

variable {gap : Duration} {gaps : List Duration} {turns : List Turn} {stage : Option Throttle}
  {asked : List Question} {earlier : List Instant} {turn : Turn}

theorem nil : Fare p earlier now [] [] none [] :=
  ⟨rfl, by simp, .inl ⟨rfl, rfl, rfl⟩⟩

theorem lost (stuck : Stuck p earlier (now + gap)) :
    Fare p earlier now (gap :: gaps) [] (some .lost) [.wait (now + gap)] :=
  ⟨rfl, by simp, .inr ⟨rfl, now + gap, rfl, by simpa using stuck, rfl⟩⟩

theorem cons (arrival : turn.arrival = now + gap) (prompt : Prompt p earlier turn)
    (fare : Fare p (earlier ++ [turn.admitted]) turn.admitted gaps turns stage asked) :
    Fare p earlier now (gap :: gaps) (turn :: turns) stage asked where
  arrivals := by
    rw [List.map_cons, fare.arrivals, arrival]
    rfl
  prompt k next there := by
    cases k with
    | zero =>
      cases there
      simpa using prompt
    | succ k => simpa using fare.prompt k next there
  ending := by
    rcases fare.ending with ⟨all, length, none⟩ | ⟨lost, arrival, there, stuck, last⟩
    · exact .inl ⟨all, congrArg (· + 1) length, none⟩
    · exact .inr ⟨lost, arrival, there, by simpa using stuck, last⟩

theorem ending_of_first (fare : Fare p [] now gaps turns stage asked) :
    (stage = none ∧ turns.length = gaps.length ∧ asked = []) ∨
      (stage = some .lost ∧ ∃ arrival,
        (List.zipWith (· + ·) (now :: turns.map (·.admitted)) gaps)[turns.length]? = some arrival ∧
        asked = [.wait arrival] ∧ max 1 p.maximum ≤ turns.length ∧
        ∃ filling, turns[turns.length - max 1 p.maximum]? = some filling ∧
          arrival < filling.admitted + p.window ∧
          Instant.limit ≤ filling.admitted + p.window) := by
  rcases fare.ending with whole | ⟨lost, arrival, there, ⟨crowded, filling, fills, closed⟩, last⟩
  · exact .inl whole
  · rw [List.nil_append, List.length_map] at crowded fills
    rw [List.getElem?_map, Option.map_eq_some_iff] at fills
    obtain ⟨earlier, fills, rfl⟩ := fills
    exact .inr ⟨lost, arrival, there, last, crowded, earlier, fills, closed⟩

theorem prompt_of_first (fare : Fare p [] now gaps turns stage asked) {k : Nat}
    (there : turns[k]? = some turn) :
    (k < max 1 p.maximum → turn.admitted = turn.arrival) ∧
      (max 1 p.maximum ≤ k → ∃ filling, turns[k - max 1 p.maximum]? = some filling ∧
        turn.admitted = max turn.arrival (filling.admitted + p.window)) := by
  have before : ((turns.take k).map (·.admitted)).length = k := by
    have below : k < turns.length := (List.getElem?_eq_some_iff.mp there).1
    rw [List.length_map, List.length_take]
    omega
  obtain ⟨early, late⟩ := fare.prompt k turn there
  rw [List.nil_append, before] at early late
  refine ⟨early, fun crowded => ?_⟩
  obtain ⟨needed, earlier, prompt⟩ := late crowded
  rw [List.getElem?_map, Option.map_eq_some_iff] at earlier
  obtain ⟨filling, earlier, rfl⟩ := earlier
  have inside : k - max 1 p.maximum < k := Nat.sub_lt_of_pos_le p.admitted_pos crowded
  rw [List.getElem?_take_of_lt inside] at earlier
  exact ⟨filling, earlier, prompt⟩

end Fare

theorem Recalls.turns (gaps : List Duration) (recalls : l.Recalls tier p now admitted) :
    ∃ turns stage asked l', Fare p admitted now gaps turns stage asked ∧
      ∀ moves trace, Throttle.turns gauge.traced tier (moves + 4) gaps now (l, trace) =
        (turns, stage, l', trace ++ turns.flatMap Turn.questions ++ asked) := by
  -- Each call adds its admission to those which the later ones find recalled.
  induction gaps generalizing l now admitted with
  | nil => exact ⟨[], none, [], l, .nil, fun _ _ => by simp [Throttle.turns]⟩
  | cons gap gaps ih =>
    have arrived : l.Recalls tier p (now + gap) admitted := recalls.wait (Nat.le_add_right now gap)
    cases told : l.timeUntilSafe? tier (now + gap) with
    | none =>
      refine ⟨[], some .lost, [.wait (now + gap)], l, .lost (arrived.stuck_of_untold told), ?_⟩
      intro moves trace
      have ran := Throttle.run_traced_of_untold (g := gauge) (s := l)
        (congrArg (·, l) told) moves trace
      simp only [Throttle.turns, ran, List.flatMap_nil, List.append_nil]
    | some wait =>
      have safe : gauge.isSafe tier (now + gap + wait) l =
          (true, (l.isSafe tier (now + gap + wait)).2) :=
        Prod.ext ((isSafe_iff_of_told told).mpr (Nat.le_refl _)) rfl
      obtain ⟨turns, stage, asked, l', fare, all⟩ :=
        ih (arrived.wait (Nat.le_add_right _ wait)).attempt
      refine ⟨⟨now + gap, now + gap + wait⟩ :: turns, stage, asked, l',
        .cons rfl (arrived.prompt_of_told told) fare, ?_⟩
      intro moves trace
      have ran := Throttle.run_traced_of_safe (g := gauge) (s := l)
        (congrArg (·, l) told) safe moves trace
      simp only [Throttle.turns, ran, all, List.flatMap_cons, List.append_assoc]

/-- Calls of one tier that take turns on a fresh limiter are admitted on arrival, or as soon as the
admission that fills their window leaves it; each of them waits once, makes one attempt and never
rests. Only where that is at an instant that cannot be told the call is lost, and it makes no
attempt. -/
theorem turns_are_prompt (anonymous authenticated : WindowPolicy) (pause : Duration)
    (tier : Tier) (start : Instant) (gaps : List Duration) :
    let l : Limiter := { anonymous, authenticated, pause }
    let p := l.policy tier
    let most := max 1 p.maximum
    ∃ turns stage asked l',
      (∀ moves, Throttle.turns gauge tier (moves + 4) gaps start l = (turns, stage, l')) ∧
      (∀ moves, Throttle.turns gauge.traced tier (moves + 4) gaps start (l, []) =
        (turns, stage, l', turns.flatMap (fun turn =>
          [.wait turn.arrival, .attempt turn.admitted true]) ++ asked)) ∧
      (let arrivals := List.zipWith (· + ·) (start :: turns.map (·.admitted)) gaps
       turns.map (·.arrival) = arrivals.take turns.length ∧
       ((stage = none ∧ turns.length = gaps.length ∧ asked = []) ∨
        (stage = some .lost ∧ ∃ arrival, arrivals[turns.length]? = some arrival ∧
          asked = [.wait arrival] ∧ most ≤ turns.length ∧
          ∃ filling, turns[turns.length - most]? = some filling ∧
            arrival < filling.admitted + p.window ∧
            Instant.limit ≤ filling.admitted + p.window))) ∧
      ∀ k turn, turns[k]? = some turn →
        (k < most → turn.admitted = turn.arrival) ∧
        (most ≤ k → ∃ filling, turns[k - most]? = some filling ∧
          turn.admitted = max turn.arrival (filling.admitted + p.window)) := by
  intro l p most
  have recalls : l.Recalls tier p start [] := Recalls.fresh rfl start
  obtain ⟨turns, stage, asked, l', fare, all⟩ := recalls.turns gaps
  have traced (moves : Nat) : Throttle.turns gauge.traced tier (moves + 4) gaps start (l, []) =
      (turns, stage, l', turns.flatMap Turn.questions ++ asked) := all moves []
  refine ⟨turns, stage, asked, l', fun moves => ?_, traced, ⟨fare.arrivals, fare.ending_of_first⟩,
    fun k turn => fare.prompt_of_first⟩
  have same := Throttle.turns_over gauge.traced_over tier (moves + 4) gaps start (l, [])
  rw [traced] at same
  exact same

/-- The second call would have to wait longer than can be told. -/
theorem second_patient_call_is_lost :
    patientPlan.isValid = true ∧ patientPlan.pace? = some (.windowed patientLimiter) ∧
      (Throttle.turns gauge .anonymous 4 [0, 0] 0 patientLimiter).1.length = 1 ∧
      (Throttle.turns gauge .anonymous 4 [0, 0] 0 patientLimiter).2.1 = some .lost := by
  refine ⟨by decide, rfl, by decide +kernel, by decide +kernel⟩

end Limiter

end PriceDesk
