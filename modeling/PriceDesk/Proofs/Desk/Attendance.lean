import PriceDesk.Proofs.Desk.PriceMeaning
import PriceDesk.Proofs.Desk.SharedFlights

namespace PriceDesk

variable {ω : Type}

/-- Whether with the move the last caller goes away who waited for a flight that is under way. -/
structure Move.Abandons (m : Move ω) (id : Nat) : Prop where
  drops : ∃ c f, m.action = .drop c ∧ (c, Caller.awaiting f) ∈ m.before.callers
  underWay : ∃ k, (k, id) ∈ m.before.inFlight
  before : m.before.isAwaited id = true
  after : m.after.isAwaited id = false

namespace Desk

variable {s : Setup ω} {d e : Desk ω} {moves : List (Move ω)}

theorem isAwaited_iff {id : Nat} : d.isAwaited id = true ↔
    ∃ c f, (c, Caller.awaiting f) ∈ d.callers ∧
      (f = id ∨ ∃ g ∈ d.flights, g.id = f ∧ id ∈ g.stage.legs) := by
  simp only [isAwaited, Bool.or_eq_true, List.any_eq_true, Bool.and_eq_true,
    List.contains_iff_mem]
  constructor
  · intro either
    rcases either with ⟨⟨c, caller⟩, member, same⟩ | ⟨g, flight, leg, ⟨c, caller⟩, member, same⟩
    · cases caller <;> simp at same
      exact ⟨c, id, same ▸ member, .inl rfl⟩
    · cases caller <;> simp at same
      exact ⟨c, g.id, same ▸ member, .inr ⟨g, flight, rfl, leg⟩⟩
  · intro given
    obtain ⟨c, f, member, rfl | ⟨g, flight, rfl, leg⟩⟩ := given
    · exact .inl ⟨(c, .awaiting f), member, by simp⟩
    · exact .inr ⟨g, flight, leg, (c, .awaiting g.id), member, by simp⟩

theorem isAwaited_of_advance {id : Nat} (step : step s d (.advance id) = some e) :
    d.isAwaited id = true := by
  cases awaited : d.isAwaited id with
  | true => rfl
  | false => simp [Desk.step, awaited] at step

theorem isAwaited_of_lookup {id index : Nat}
    (step : step s d (.lookup (.flight id) index) = some e) : d.isAwaited id = true := by
  cases awaited : d.isAwaited id with
  | true => rfl
  | false => simp [Desk.step, awaited] at step

theorem Run.legs_isLeg (run : Run s moves d) {f g : Flight ω} (member : f ∈ d.flights)
    (there : g ∈ d.flights) (leg : g.id ∈ f.stage.legs) : g.key.isLeg = true := by
  have sound := run.sound f member
  cases stage : f.stage with
  | combining i j =>
    rw [stage] at sound leg
    obtain ⟨via, _, _, _, network, _, one, two⟩ := sound
    simp only [Stage.legs, List.mem_cons, List.not_mem_nil, or_false] at leg
    rcases leg with first | second
    · exact isLeg_of_beq (one.2 g there first)
    · exact isLeg_of_beq (two.2 g there second)
  | surveying _ | choosing _ _ _ | asking _ _ _ _ | done _ =>
    rw [stage] at leg
    cases leg

theorem Run.awaited_of_whole (run : Run s moves d) {f : Flight ω} (member : f ∈ d.flights)
    (whole : f.key.isLeg = false) (awaited : d.isAwaited f.id = true) :
    ∃ c, (c, Caller.awaiting f.id) ∈ d.callers := by
  obtain ⟨c, _, waits, rfl | ⟨g, there, rfl, leg⟩⟩ := isAwaited_iff.mp awaited
  · exact ⟨c, waits⟩
  · rw [run.legs_isLeg there member leg] at whole
    cases whole

theorem Run.whole_of_surveying (run : Run s moves d) {f : Flight ω} {survey : Survey ω}
    (member : f ∈ d.flights) (stage : f.stage = .surveying survey) : f.key.isLeg = false := by
  refine Bool.eq_false_iff.mpr fun part => ?_
  have ended := run.leg_unsearched member part
  rw [stage] at ended
  cases ended

theorem Ending.legs_done (h : Coherent d) {f g : Flight ω} {r : PriceResult}
    (ending : Ending s d g r) (member : f ∈ d.flights) (leg : f.id ∈ g.stage.legs) :
    ∃ q, f.stage = .done q := by
  have found := h.flight?_of_mem member
  cases ending with
  | combined stage one oneDone two twoDone =>
    rw [stage] at leg
    simp only [Stage.legs, List.mem_cons, List.not_mem_nil, or_false] at leg
    rcases leg with same | same
    · rw [same, one] at found
      cases found
      exact ⟨_, oneDone⟩
    · rw [same, two] at found
      cases found
      exact ⟨_, twoDone⟩
  | unfound stage _ _ | exhausted stage | priced stage _ _ | refused stage _ _ _ =>
    rw [stage] at leg
    cases leg

theorem legs_stay (h : Coherent d) {a : Action ω} (t : Transition s d a e) {f g g' : Flight ω}
    (member : f ∈ d.flights) (going : f.stage.result? = none) (there : g ∈ d.flights)
    (leg : f.id ∈ g.stage.legs) (there' : g' ∈ e.flights) (number : g.id = g'.id) :
    g'.stage = g.stage := by
  rcases (course h t there there' number).2 with same | follows
  · exact same.symm
  · cases stage' : g'.stage with
    | done r =>
      rw [stage'] at follows
      have open_ := going_of_follows_done follows
      have completes : Move.Completes ⟨d, a, e⟩ g r :=
        ⟨there, open_, g', there', number.symm, stage'⟩
      obtain ⟨q, done⟩ := (completed_move h t completes).2.1.legs_done h member leg
      rw [done] at going
      cases going
    | surveying _ | choosing _ _ _ | asking _ _ _ _ | combining _ _ =>
      rw [stage'] at follows
      generalize g.stage = stage at follows leg
      cases follows <;> cases leg

theorem Run.awaited_move (run : Run s moves d) {a : Action ω} (step : step s d a = some e)
    {f : Flight ω} (member : f ∈ d.flights) (going : f.stage.result? = none)
    (awaited : d.isAwaited f.id = true) :
    e.isAwaited f.id = true ∨ ∃ c i, a = .drop c ∧ (c, Caller.awaiting i) ∈ d.callers := by
  have h := run.coherent
  have t := transition_of_step step
  have after := h.move t
  obtain ⟨c, i, waits, here⟩ := isAwaited_iff.mp awaited
  rcases run.caller_move step waits with still | ⟨dropped, _⟩ | ⟨_, r, _, n, earlier, q, own, ended⟩
  · have waits' := mem_of_caller? still
    refine .inl (isAwaited_iff.mpr ⟨c, i, waits', ?_⟩)
    rcases here with same | ⟨g, there, number, leg⟩
    · exact .inl same
    obtain ⟨g', there', number'⟩ := after.awaited c i waits'
    refine .inr ⟨g', there', number', ?_⟩
    have one := number.trans number'.symm
    rw [legs_stay h t member going there leg there' one]
    exact leg
  · exact .inr ⟨c, i, dropped, waits⟩
  · have done := (run.completed earlier ended).2
    rw [own] at done
    rcases here with same | ⟨g, there, number, leg⟩
    · rw [done f member same.symm] at going
      cases going
    · rw [done g there number] at leg
      cases leg

theorem Run.awaited_of_new (run : Run s moves d) {a : Action ω} (step : step s d a = some e)
    {g : Flight ω} (there : g ∈ e.flights) (new : d.nextFlight ≤ g.id) :
    e.isAwaited g.id = true := by
  have h := run.coherent
  have old : ¬ g ∈ d.flights := fun was => Nat.not_lt.mpr new (h.below g was)
  have other : ∀ f ∈ d.flights, f.id ≠ g.id :=
    fun f was same => Nat.not_lt.mpr new (same ▸ h.below f was)
  cases transition_of_step step with
  | @requested key id d₁ joins =>
    cases joins with
    | joined _ _ => exact absurd there old
    | started _ =>
      rcases List.mem_cons.mp there with rfl | was
      · exact isAwaited_iff.mpr
          ⟨d.nextCaller, _, List.mem_append_right _ List.mem_cons_self, .inl rfl⟩
      · exact absurd was old
  | @flightLooked f survey survey' floor index flight stage looks =>
    have member := mem_of_flight? flight
    rcases mem_setStage_cases (h.onFloor floor) member there with was | rfl
    · exact absurd was old
    · exact absurd rfl (other f member)
  | @ended f r flight ending =>
    have member := mem_of_flight? flight
    rcases mem_setStage_cases h member there with was | rfl
    · exact absurd was old
    · exact absurd rfl (other f member)
  | @wentOn f stage world flight onward =>
    have member := mem_of_flight? flight
    rcases mem_setStage_cases (h.onFloor { d.floor with world }) member there with was | rfl
    · exact absurd was old
    · exact absurd rfl (other f member)
  | @split f survey listings first second diagnostics i j d₁ d₂ flight stage loaded found one two =>
    have member := mem_of_flight? flight
    have coherent := ((h.joining one).1.joining two).1
    obtain ⟨c, waits⟩ := run.awaited_of_whole member
      (run.whole_of_surveying member stage) (isAwaited_of_advance step)
    have waits' : (c, Caller.awaiting f.id) ∈ d₂.callers := by
      rw [two.callers, one.callers]
      exact waits
    -- The caller of the flight that is split waits for its legs from now on.
    have legs : g.id = i ∨ g.id = j →
        (d₂.setStage f.id (.combining i j)).isAwaited g.id = true := by
      intro either
      exact isAwaited_iff.mpr ⟨c, f.id, waits', .inr ⟨_,
        coherent.restaged (two.mem (one.mem member)) (.combining i j), rfl,
        by simpa [Stage.legs] using either⟩⟩
    rcases mem_setStage_cases coherent (two.mem (one.mem member)) there with was | rfl
    · cases two with
      | joined _ _ =>
        cases one with
        | joined _ _ => exact absurd was old
        | started _ =>
          rcases List.mem_cons.mp was with rfl | was
          · exact legs (.inl rfl)
          · exact absurd was old
      | started _ =>
        rcases List.mem_cons.mp was with rfl | was
        · exact legs (.inr rfl)
        · cases one with
          | joined _ _ => exact absurd was old
          | started _ =>
            rcases List.mem_cons.mp was with rfl | was
            · exact legs (.inl rfl)
            · exact absurd was old
    · exact absurd rfl (other f member)
  | forgot => exact absurd (Coherent.mem_flights_forget.mp there).1 old
  | surveyed | callerLooked _ _ | collected _ _ _ | left _ | surveyLeft _ | ticked _ =>
    exact absurd there old

theorem going_of_follows {x y : Stage ω} (follows : Stage.Follows x y) : x.result? = none := by
  cases follows with
  | ends going => exact going
  | looks | finds | splits | skips | asks | retries => rfl

theorem Run.attended (run : Run s moves d) {f : Flight ω} (member : f ∈ d.flights)
    (going : f.stage.result? = none) :
    d.isAwaited f.id = true ∨ ∃ m ∈ moves, m.Abandons f.id := by
  induction run generalizing f with
  | start floor => cases member
  | @move moves d e a run whole step ih =>
    have h := run.coherent
    have earlier : ∀ g ∈ d.flights, g.stage.result? = none →
        e.isAwaited g.id = true ∨ ∃ m ∈ moves ++ [⟨d, a, e⟩], m.Abandons g.id := by
      intro g was open_
      rcases ih was open_ with awaited | ⟨m, among, abandons⟩
      · cases still : e.isAwaited g.id with
        | true => exact .inl rfl
        | false =>
          rcases run.awaited_move step was open_ awaited with again | drops
          · rw [still] at again
            cases again
          · have entry := (h.underWay g.key g.id).mpr ⟨g, was, rfl, rfl, open_⟩
            exact .inr ⟨_, List.mem_append_right _ List.mem_cons_self, drops, ⟨_, entry⟩, awaited,
              still⟩
      · exact .inr ⟨m, List.mem_append_left _ among, abandons⟩
    cases origin h (transition_of_step step) member with
    | kept was => exact earlier f was going
    | moved was number _ follows =>
      rw [← number]
      exact earlier _ was (going_of_follows follows)
    | asked new _ _ => exact .inl (run.awaited_of_new step member new)
    | leg new _ _ => exact .inl (run.awaited_of_new step member new)

theorem Coherent.stays (h : Coherent d) {a : Action ω} (step : step s d a = some e) {f : Flight ω}
    (member : f ∈ d.flights) (going : f.stage.result? = none)
    (alone : d.isAwaited f.id = false) : f ∈ e.flights := by
  have other : ∀ id, d.isAwaited id = true → f.id ≠ id := by
    intro id awaited same
    rw [← same, alone] at awaited
    cases awaited
  cases transition_of_step step with
  | requested joins => exact joins.mem member
  | @flightLooked g survey survey' floor index flight stage looks =>
    exact (h.onFloor floor).mem_setStage.mpr (.inl ⟨member, other _ (isAwaited_of_lookup step)⟩)
  | ended flight ending =>
    exact h.mem_setStage.mpr (.inl ⟨member, other _ (isAwaited_of_advance step)⟩)
  | @wentOn g stage world flight onward =>
    exact (h.onFloor { d.floor with world }).mem_setStage.mpr
      (.inl ⟨member, other _ (isAwaited_of_advance step)⟩)
  | split flight stage loaded found one two =>
    have coherent := ((h.joining one).1.joining two).1
    exact coherent.mem_setStage.mpr
      (.inl ⟨two.mem (one.mem member), other _ (isAwaited_of_advance step)⟩)
  | forgot => exact mem_flights_forget.mpr ⟨member, .inl going⟩
  | surveyed | callerLooked _ _ | collected _ _ _ | left _ | surveyLeft _ | ticked _ => exact member

theorem Coherent.joinOrStart_eq (h : Coherent d) {k key : RequestKey} {id : Nat}
    (entry : (k, id) ∈ d.inFlight) (same : (k == key) = true) (leg : Option Leg) :
    joinOrStart s d key leg = (id, d) := by
  cases joins : joinOrStart s d key leg with
  | mk i e =>
    cases joining_of_joinOrStart joins with
    | joined entry' same' =>
      obtain ⟨_, rfl⟩ := h.entry_unique entry' entry (BEq.trans same' (BEq.symm same))
      rfl
    | started new =>
      rw [new _ entry] at same
      cases same

/-- Who waits for the requests that are under way, after the moves of a run. -/
structure Attended (s : Setup ω) (moves : List (Move ω)) (d : Desk ω) : Prop where
  awaited : ∀ k id, (k, id) ∈ d.inFlight → d.isAwaited id = true ∨ ∃ m ∈ moves, m.Abandons id
  /-- If nobody went away like that, and nobody waits, the table is empty, and whoever asks next
  starts a search of its own. -/
  idle : (∀ m ∈ moves, ∀ id, ¬ m.Abandons id) → (∀ c id, (c, Caller.awaiting id) ∉ d.callers) →
    d.inFlightCount = 0 ∧ ∀ key, step s d (.request key) =
      some ((d.started s key none).admitCaller (.awaiting d.nextFlight))
  stays : ∀ k id, (k, id) ∈ d.inFlight → d.isAwaited id = false → ∀ a e, step s d a = some e →
    (k, id) ∈ e.inFlight ∧ e.flight? id = d.flight? id
  resumed : ∀ k id key, (k, id) ∈ d.inFlight → (k == key) = true →
    step s d (.request key) = some (d.admitCaller (.awaiting id))

/-- Whatever moves come, a request is under way only while somebody waits for it, or after the last
caller who did went away. -/
theorem requests_are_attended (run : Run s moves d) : Attended s moves d where
  awaited := by
    intro k id entry
    obtain ⟨f, member, rfl, _, going⟩ := (run.coherent.underWay k id).mp entry
    exact run.attended member going
  idle := by
    intro loyal nobody
    have nothing : d.inFlight = [] := by
      apply List.eq_nil_iff_forall_not_mem.mpr
      intro ⟨k, id⟩ entry
      obtain ⟨f, member, rfl, _, going⟩ := (run.coherent.underWay k id).mp entry
      rcases run.attended member going with awaited | ⟨m, among, abandons⟩
      · obtain ⟨c, i, waits, _⟩ := isAwaited_iff.mp awaited
        exact nobody c i waits
      · exact loyal m among f.id abandons
    refine ⟨by rw [inFlightCount, nothing]; rfl, fun key => ?_⟩
    simp only [step, joinOrStart, nothing, List.lookup_nil, Desk.started]
  stays := by
    intro k id entry alone a e step
    have h := run.coherent
    have after := h.move (transition_of_step step)
    obtain ⟨f, member, rfl, rfl, going⟩ := (h.underWay k id).mp entry
    have there := h.stays step member going alone
    refine ⟨(after.underWay _ _).mpr ⟨f, there, rfl, rfl, going⟩, ?_⟩
    rw [after.flight?_of_mem there, h.flight?_of_mem member]
  resumed := by
    intro k id key entry same
    simp only [step, run.coherent.joinOrStart_eq entry same]

/-- A caller goes away while a provider is asked: the table keeps its request, though nobody waits,
and who asks next is given the flight as it was left. -/
theorem prompt_request_is_left_behind : ∃ moves d e,
    Run (promptSetup [.of "BTC" "USD"]) moves d ∧ (∀ c id, (c, Caller.awaiting id) ∉ d.callers) ∧
      d.inFlightCount = 1 ∧ d.isAwaited 0 = false ∧
      step (promptSetup [.of "BTC" "USD"]) d (.request { pair := .of "BTC" "USD" }) = some e ∧
      e.flights = d.flights ∧ e.caller? 1 = some (.awaiting 0) := by
  have run := Run.start (s := promptSetup [.of "BTC" "USD"]) promptFloor
    |>.move (a := .request { pair := .of "BTC" "USD" }) rfl rfl
    |>.move (a := .lookup (.flight 0) 0) trivial rfl
    |>.move (a := .lookup (.flight 0) 0) trivial rfl
    |>.move (a := .lookup (.flight 0) 0) trivial rfl
    |>.move (a := .advance 0) trivial rfl
    |>.move (a := .advance 0) trivial rfl
    |>.move (a := .drop 0) trivial rfl
  refine ⟨_, _, _, run, ?_, by rfl, by rfl, by rfl, by rfl, by rfl⟩
  intro c id waits
  cases List.mem_singleton.mp waits

/-- The request that was left behind is attended in the only way that is left: its caller went
away. -/
theorem prompt_request_is_attended : ∃ moves d,
    Run (promptSetup [.of "BTC" "USD"]) moves d ∧ d.inFlightCount = 1 ∧
      (∃ m ∈ moves, m.Abandons 0) ∧ Attended (promptSetup [.of "BTC" "USD"]) moves d := by
  have run := Run.start (s := promptSetup [.of "BTC" "USD"]) promptFloor
    |>.move (a := .request { pair := .of "BTC" "USD" }) rfl rfl
    |>.move (a := .lookup (.flight 0) 0) trivial rfl
    |>.move (a := .drop 0) trivial rfl
  refine ⟨_, _, run, by rfl, ?_, requests_are_attended run⟩
  exact ⟨_, .tail _ (.tail _ (.head _)), ⟨0, 0, rfl, .head _⟩, ⟨_, .head _⟩, by rfl, by rfl⟩

end Desk

end PriceDesk
