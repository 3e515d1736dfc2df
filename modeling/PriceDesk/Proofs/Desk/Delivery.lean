import PriceDesk.Proofs.Desk.Asking
import PriceDesk.Proofs.Desk.PriceMeaning
import PriceDesk.Proofs.Desk.Reach
import PriceDesk.Proofs.Desk.Workload

namespace PriceDesk

variable {ω : Type}

theorem Action.isWork_of_isStep {a : Action ω} (isStep : a.isStep = true) : a.IsWork := by
  cases a with
  | lookup _ _ | advance _ => exact trivial
  | request _ | survey _ | collect _ | drop _ | tick _ | forget => cases isStep

inductive Serves (s : Setup ω) (moves : List (Move ω)) (d : Desk ω) :
    List (Move ω) → Desk ω → Prop
  | refl : Serves s moves d moves d
  | step {moves' : List (Move ω)} {d' e : Desk ω} {a : Action ω}
      (serves : Serves s moves d moves' d') (isWork : a.IsWork)
      (step : Desk.step s d' a = some e) : Serves s moves d (moves' ++ [⟨d', a, e⟩]) e

namespace Serves

variable {s : Setup ω} {d d' e : Desk ω} {moves moves' moves'' : List (Move ω)}

theorem of (_ : Desk.Run s moves d) : Serves s moves d moves d := .refl

theorem trans (one : Serves s moves d moves' d') (two : Serves s moves' d' moves'' e) :
    Serves s moves d moves'' e := by
  induction two with
  | refl => exact one
  | step _ isWork step ih => exact ih.step isWork step

theorem run (serves : Serves s moves d moves' e) (run : Desk.Run s moves d) :
    Desk.Run s moves' e := by
  induction serves with
  | refl => exact run
  | @step moves' d' e a _ isWork step ih =>
    refine ih.move ?_ step
    cases a with
    | request key => cases isWork
    | survey _ | lookup _ _ | advance _ | collect _ | drop _ | tick _ | forget => exact trivial

theorem opened_eq (serves : Serves s moves d moves' e) :
    Desk.opened moves' e = Desk.opened moves d := by
  induction serves with
  | refl => rfl
  | step _ _ _ ih => exact (Desk.opened_append _ _ _).trans ih

theorem subset (serves : Serves s moves d moves' e) {m : Move ω} (member : m ∈ moves) :
    m ∈ moves' := by
  induction serves with
  | refl => exact member
  | step _ _ _ ih => exact List.mem_append_left _ ih

theorem mem_or_isWork (serves : Serves s moves d moves' e) {m : Move ω} (member : m ∈ moves') :
    m ∈ moves ∨ m.action.IsWork := by
  induction serves with
  | refl => exact .inl member
  | step _ isWork _ ih =>
    rcases List.mem_append.mp member with earlier | last
    · exact ih earlier
    · cases List.mem_singleton.mp last
      exact .inr isWork

theorem all_of_work (serves : Serves s moves d moves' e) {P : Move ω → Prop}
    (all : ∀ m ∈ moves, P m) (work : ∀ m, m.action.IsWork → P m) : ∀ m ∈ moves', P m := by
  intro m member
  rcases serves.mem_or_isWork member with earlier | isWork
  · exact all m earlier
  · exact work m isWork

end Serves

theorem Move.isPatient_of_isWork {m : Move ω} (isWork : m.action.IsWork) : m.IsPatient := by
  intro c drops
  rw [drops] at isWork
  cases isWork

theorem Pending.arrives {ε α : Type} {call : Pending ε α} {clock : Clock}
    (limited : call.cutoff.isSome = true) (pending : call.poll clock.now = none) :
    ∃ t, clock.now < t ∧ (call.poll (clock.advance t).now).isSome = true := by
  obtain ⟨⟨t, failure⟩, cutoff⟩ := Option.isSome_iff_exists.mp limited
  have later : clock.now < t := by
    apply Nat.lt_of_not_le
    intro passed
    simp only [poll, cutoff, Option.bind_some, if_pos passed] at pending
    split at pending <;> cases pending
  refine ⟨t, later, ?_⟩
  have passed : t ≤ (clock.advance t).now := Nat.le_max_right _ _
  unfold poll
  split
  · rfl
  · simp [cutoff, passed]

namespace Desk

variable {s : Setup ω} {d e : Desk ω} {moves : List (Move ω)}

theorem Run.steps_le (run : Run s moves d) {moves' : List (Move ω)}
    (serves : Serves s moves d moves' e) :
    moves'.countP (·.action.isStep) + e.work s ≤ moves.countP (·.action.isStep) + d.work s := by
  induction serves with
  | refl => exact Nat.le_refl _
  | @step moves' d' e a serves isWork step ih =>
    have h := (serves.run run).coherent
    have t := transition_of_step step
    rw [List.countP_append, List.countP_singleton]
    cases isStep : a.isStep with
    | true =>
      have less := work_lt h t isStep
      simp only [if_true]
      omega
    | false =>
      have same : e.work s ≤ d'.work s := by
        cases t with
        | collected caller _ _ =>
          have sum := work_setCaller s h (mem_of_caller? caller) (.answered ‹_›)
          exact Nat.le_of_eq sum
        | ticked _ => exact Nat.le_of_eq (work_onFloor s _ _)
        | flightLooked _ _ _ | callerLooked _ _ | ended _ _ | wentOn _ _
        | split _ _ _ _ _ _ => cases isStep
        | requested _ | surveyed | left _ | surveyLeft _ | forgot => cases isWork
      simp only [Bool.false_eq_true, if_false]
      omega

theorem step_tick {t : Instant} (later : d.floor.clock.now < t) : step s d (.tick t) =
    some (d.onFloor { d.floor with clock := d.floor.clock.advance t }) :=
  if_pos later

theorem Run.serves_move (run : Run s moves d) {c id : Nat}
    (waits : (c, Caller.awaiting id) ∈ d.callers) {a : Action ω}
    (isStep : a.isStep = true) (step : step s d a = some e) :
    Serves s moves d (moves ++ [⟨d, a, e⟩]) e ∧ (c, Caller.awaiting id) ∈ e.callers ∧
      e.work s < d.work s := by
  refine ⟨.step .refl (Action.isWork_of_isStep isStep) step, ?_,
    work_lt run.coherent (transition_of_step step) isStep⟩
  rcases run.caller_move step waits with still | ⟨drops, _⟩ | ⟨collects, _⟩
  · exact mem_of_caller? still
  · rw [drops] at isStep
    cases isStep
  · rw [collects] at isStep
    cases isStep

theorem Run.listing_cutoff (run : Run s moves d) {owner : Owner} {index : Nat} {p : Provider ω}
    {ticket : Nat} {call : Pending MarketError Listing}
    (there : d.visit? owner index = some (p, .computing ticket call)) :
    call.cutoff.isSome = true := by
  induction run generalizing owner index p with
  | start floor => cases owner <;> cases there
  | move run whole step ih =>
    cases visited run.coherent (transition_of_step step) there with
    | stood here => exact ih here
    | came nobody new asked =>
      cases lists : p.listing <;> simp [Survey.of, lists] at new
    | moved action here lists moved =>
      rw [moved.call_eq rfl]
      rfl

theorem Run.quotes_cutoff (run : Run s moves d) {f : Flight ω} {leg : Leg} {p : Provider ω}
    {call : Pending MarketError Quotes} {queue : List (Provider ω)} (member : f ∈ d.flights)
    (stage : f.stage = .asking leg p call queue) : call.cutoff.isSome = true := by
  have sound := run.sound f member
  rw [stage] at sound
  obtain ⟨_, _, _, m, _, pricing, requested, _, called⟩ := sound
  have same := congrArg Prod.fst called
  rw [← show _ = call from same]
  rfl

section

variable (run : Run s moves d) {ttl : Duration}
  (fresh : (opened moves d).floor.listings = { ttl }) (patient : ∀ m ∈ moves, m.IsPatient)

include run fresh patient

omit fresh in
theorem Run.listing_arrives {owner : Owner} {index : Nat} {p : Provider ω} {ticket : Nat}
    {call : Pending MarketError Listing}
    (there : d.visit? owner index = some (p, .computing ticket call))
    (pending : call.poll d.floor.clock.now = none) : ∃ t e, step s d (.tick t) = some e ∧
      (step s e (.lookup owner index)).isSome = true := by
  obtain ⟨t, later, arrived⟩ := Pending.arrives (run.listing_cutoff there) pending
  have tick := step_tick (s := s) later
  have run' := run.move (a := .tick t) trivial tick
  have patient' := (Serves.refl.step (a := .tick t) trivial tick).all_of_work patient
    fun _ => Move.isPatient_of_isWork
  have there' : (d.onFloor { d.floor with clock := d.floor.clock.advance t }).visit? owner index =
      some (p, .computing ticket call) := by
    cases owner <;> exact there
  exact ⟨t, _, tick, run'.lookup_runs patient' there' rfl arrived⟩

omit fresh in
theorem Run.quotes_arrive {f : Flight ω} {leg : Leg} {p : Provider ω}
    {call : Pending MarketError Quotes} {queue : List (Provider ω)} (member : f ∈ d.flights)
    (stage : f.stage = .asking leg p call queue)
    (pending : call.poll d.floor.clock.now = none) : ∃ t e, step s d (.tick t) = some e ∧
      (step s e (.advance f.id)).isSome = true := by
  obtain ⟨t, later, arrived⟩ := Pending.arrives (run.quotes_cutoff member stage) pending
  obtain ⟨outcome, arrived⟩ := Option.isSome_iff_exists.mp arrived
  have tick := step_tick (s := s) later
  have run' := run.move (a := .tick t) trivial tick
  have patient' := (Serves.refl.step (a := .tick t) trivial tick).all_of_work patient
    fun _ => Move.isPatient_of_isWork
  have awaited := run'.awaited_of_patient patient' (f := f) member (by rw [stage]; rfl)
  have advances := isSome_advance (s := s)
    (d := d.onFloor { d.floor with clock := d.floor.clock.advance t }) stage arrived
  exact ⟨t, _, tick, run'.coherent.flight_runs (f := f) member awaited advances⟩

theorem Run.goes_on {c id : Nat} (waits : (c, Caller.awaiting id) ∈ d.callers) :
    (step s d (.collect c)).isSome = true ∨ ∃ moves' e, Serves s moves d moves' e ∧
      (c, Caller.awaiting id) ∈ e.callers ∧ e.work s < d.work s := by
  -- Where time passes until a call has arrived, the caller still waits, and nothing else changes.
  have later : ∀ {t : Instant} {e : Desk ω} {a : Action ω}, step s d (.tick t) = some e →
      a.isStep = true → (step s e a).isSome = true → ∃ moves' e, Serves s moves d moves' e ∧
        (c, Caller.awaiting id) ∈ e.callers ∧ e.work s < d.work s := by
    intro t e a tick isStep can
    obtain ⟨e', step'⟩ := Option.isSome_iff_exists.mp can
    have first : Serves s moves d (moves ++ [⟨d, .tick t, e⟩]) e := .step .refl trivial tick
    cases transition_of_step tick
    obtain ⟨second, still, less⟩ := (first.run run).serves_move waits isStep step'
    exact ⟨_, _, first.trans second, still, less⟩
  obtain ⟨y, chain, ends⟩ := run.reaches fresh patient (.awaiting waits)
  have under : Engaged d y := by
    rcases chain.cases_tail with same | ⟨x, _, last⟩
    · exact same ▸ .awaiting waits
    · exact run.engaged fresh last
  rcases ends with isCall | runnable
  · cases under with
    | listingCall there pending =>
      obtain ⟨t, e, tick, can⟩ := run.listing_arrives patient there pending
      exact .inr (later tick rfl can)
    | quotesCall flight stage pending =>
      obtain ⟨t, e, tick, can⟩ := run.quotes_arrive patient (mem_of_flight? flight) stage pending
      exact .inr (later tick rfl can)
    | awaiting _ | surveying _ | flight _ _ | lookup _ _ | slot _ => cases isCall
  · cases y with
    | caller c' =>
      rcases chain.cases_tail with same | ⟨x, _, last⟩
      · cases same
        rcases runnable with collects | ⟨survey, caller, _⟩
        · exact .inl collects
        · rw [run.coherent.caller?_of_mem waits] at caller
          cases caller
      · cases last
    | flight i =>
      obtain ⟨e, step'⟩ := Option.isSome_iff_exists.mp runnable
      exact .inr ⟨_, e, run.serves_move waits rfl step'⟩
    | lookup owner index =>
      obtain ⟨e, step'⟩ := Option.isSome_iff_exists.mp runnable
      exact .inr ⟨_, e, run.serves_move waits rfl step'⟩
    | slot _ | listingCall _ _ | quotesCall _ => cases runnable

theorem Run.collects {c id : Nat} (waits : (c, Caller.awaiting id) ∈ d.callers) :
    ∃ moves' e e', Serves s moves d moves' e ∧ (c, Caller.awaiting id) ∈ e.callers ∧
      step s e (.collect c) = some e' := by
  induction left : d.work s using Nat.strongRecOn generalizing moves d with
  | ind n ih =>
    rcases run.goes_on fresh patient waits with collects | goesOn
    · obtain ⟨e', step'⟩ := Option.isSome_iff_exists.mp collects
      exact ⟨moves, d, e', .refl, waits, step'⟩
    · obtain ⟨moves', e, serves, still, less⟩ := goesOn
      have fresh' : (opened moves' e).floor.listings = { ttl } := serves.opened_eq ▸ fresh
      have patient' := serves.all_of_work patient fun _ => Move.isPatient_of_isWork
      obtain ⟨moves'', e', e'', serves', still', collects⟩ :=
        ih (e.work s) (left ▸ less) (serves.run run) fresh' patient' still rfl
      exact ⟨moves'', e', e'', serves.trans serves', still', collects⟩

theorem Run.served {m : Move ω} {key : RequestKey} (member : m ∈ moves)
    (request : m.action = .request key) :
    ∃ moves' e r, Serves s moves d moves' e ∧ m.Given moves' r := by
  rcases run.given_or_waits patient member request with ⟨r, given⟩ | ⟨id, waits⟩
  · exact ⟨moves, d, r, .refl, given⟩
  · obtain ⟨moves', e, e', serves, still, collects⟩ :=
      run.collects fresh patient waits
    have next : Serves s moves d (moves' ++ [⟨e, .collect m.before.nextCaller, e'⟩]) e' :=
      .step serves trivial collects
    rcases (serves.run run).caller_move collects still with same | ⟨drops, _⟩ | ⟨_, r, given, _⟩
    · cases transition_of_step collects with
      | collected caller _ _ =>
        rw [caller?_setCaller, if_pos rfl, caller] at same
        cases same
    · cases drops
    · exact ⟨_, e', r, next, _, List.mem_append_right _ List.mem_cons_self, rfl, given⟩

end

end Desk

end PriceDesk
