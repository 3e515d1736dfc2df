import PriceDesk.Proofs.Desk.History

namespace PriceDesk.Desk

variable {ω : Type} {s : Setup ω} {d e : Desk ω} {moves : List (Move ω)}

theorem Coherent.caller?_of_mem (h : Coherent d) {c : Nat} {x : Caller ω}
    (member : (c, x) ∈ d.callers) : d.caller? c = some x := by
  have distinct := h.callersDistinct
  unfold caller?
  generalize d.callers = callers at member distinct
  induction callers with
  | nil => cases member
  | cons caller callers ih =>
    rw [List.map_cons, List.nodup_cons] at distinct
    rcases List.mem_cons.mp member with rfl | member
    · simp
    · have differs : c ≠ caller.1 := fun same =>
        distinct.1 (List.mem_map.mpr ⟨(c, x), member, same⟩)
      rw [List.lookup_cons, beq_eq_false_iff_ne.mpr differs]
      exact ih member distinct.2

/-- What a move does with the requests that are under way, after the moves of a run. -/
structure Shares (s : Setup ω) (moves : List (Move ω)) (m : Move ω) : Prop where
  oneEach : m.after.inFlight.Pairwise fun a b => (a.1 == b.1) = false
  underWay : ∀ k id, (k, id) ∈ m.after.inFlight ↔
    ∃ f ∈ m.after.flights, f.id = id ∧ f.key = k ∧ f.stage.result? = none
  startedOnce : ∀ f, m.Starts f →
    (∀ n ∈ moves, ∀ g, n.Starts g → g.id ≠ f.id) ∧ ∀ g ∈ m.after.flights, g.id = f.id → g = f
  course : ∀ f ∈ m.before.flights, ∀ g ∈ m.after.flights, f.id = g.id →
    f.key = g.key ∧ (f.stage = g.stage ∨ Stage.Follows f.stage g.stage ∧
      (f.stage.survey? = none → g.stage.survey? = none ∧ g.stage.ahead < f.stage.ahead))
  searchedOnce : ∀ f, m.Searches f →
    f.key.isLeg = false ∧ ∀ n ∈ moves, ∀ g, n.Searches g → g.id ≠ f.id
  legsUnsearched : ∀ f ∈ m.after.flights, f.key.isLeg = true → f.stage.survey? = none
  completedOnce : ∀ f r, m.Completes f r → ∀ n ∈ moves, ∀ g q, n.Completes g q → g.id ≠ f.id
  removed : ∀ f r, m.Completes f r → (f.key, f.id) ∈ m.before.inFlight ∧
    ∀ entry, entry ∈ m.after.inFlight ↔ entry ∈ m.before.inFlight ∧ entry ≠ (f.key, f.id)
  published : ∀ f r, m.Completes f r → m.after.feed = m.before.feed.push ⟨f.key, r⟩ ∧
    m.after.lastResults = m.before.lastResults.insert ⟨f.key, r⟩ ∧
    ∀ g q, m.Completes g q → g = f ∧ q = r
  quiet : (∀ f r, ¬ m.Completes f r) → m.after.feed = m.before.feed ∧
    m.after.lastResults = m.before.lastResults ∧
    ∀ entry ∈ m.before.inFlight, entry ∈ m.after.inFlight
  joined : ∀ key, m.action = .request key → ∃ k id, (k == key) = true ∧
    (k, id) ∈ m.after.inFlight ∧ m.after.caller? m.before.nextCaller = some (.awaiting id)
  legsJoined : ∀ f ∈ m.before.flights, ∀ g ∈ m.after.flights, g.id = f.id → f.stage.legs = [] →
    ∀ i ∈ g.stage.legs, ∃ k, k.isLeg = true ∧ (k, i) ∈ m.after.inFlight
  waiting : ∀ c id, (c, Caller.awaiting id) ∈ m.before.callers →
    ∃ f ∈ m.before.flights, f.id = id ∧ ∀ r, f.stage = .done r →
      (∃ n ∈ moves, ∃ g, g.id = id ∧ n.Completes g r) ∧
        step s m.before (.collect c) = some (m.before.setCaller c (.answered r))
  /-- Who waits goes on waiting, goes away, or takes the result that the flight was completed
  with. -/
  answered : ∀ c id, (c, Caller.awaiting id) ∈ m.before.callers →
    m.after.caller? c = some (.awaiting id) ∨
      m.action = .drop c ∧ m.after.caller? c = some .gone ∨
      m.action = .collect c ∧ ∃ r, m.after.caller? c = some (.answered r) ∧
        ∃ n ∈ moves, ∃ f, f.id = id ∧ n.Completes f r
  combined : ∀ f r i j, m.Completes f r → f.stage = .combining i j → ∃ first second,
    r = (do combine f.key.pair (← first) (← second)) ∧
      (∃ n ∈ moves, ∃ g, g.id = i ∧ n.Completes g first) ∧
      ∃ n ∈ moves, ∃ g, g.id = j ∧ n.Completes g second

theorem Joining.callers {key : RequestKey} {leg : Option Leg} {id : Nat}
    (joins : Joining s d key leg id e) : e.callers = d.callers := by
  cases joins <;> rfl

theorem isLeg_of_beq {k l : RequestKey} (same : (k == l) = true) : k.isLeg = l.isLeg := by
  simp only [RequestKey.isLeg, (RequestKey.beq_iff.mp same).2.1]

theorem caller?_setCaller (d : Desk ω) (c id : Nat) (x : Caller ω) :
    (d.setCaller id x).caller? c =
      if c = id then (d.caller? c).map fun _ => x else d.caller? c := by
  unfold caller? setCaller
  generalize d.callers = callers
  induction callers with
  | nil => simp
  | cons caller callers ih =>
    obtain ⟨number, old⟩ := caller
    have entry : (if (number == id) = true then (number, x) else (number, old)) =
        (number, if number = id then x else old) := by
      by_cases own : number = id <;> simp [own]
    simp only [List.map_cons, entry, List.lookup_cons]
    by_cases same : c = number
    · subst same
      by_cases own : c = id <;> simp [own]
    · simp only [beq_eq_false_iff_ne.mpr same]
      exact ih

theorem Run.caller_move (run : Run s moves d) {a : Action ω} (step : step s d a = some e)
    {c id : Nat} (waits : (c, Caller.awaiting id) ∈ d.callers) :
    e.caller? c = some (.awaiting id) ∨ a = .drop c ∧ e.caller? c = some .gone ∨
      a = .collect c ∧ ∃ r, e.caller? c = some (.answered r) ∧
        ∃ n ∈ moves, ∃ f, f.id = id ∧ n.Completes f r := by
  have h := run.coherent
  have t := transition_of_step step
  have after := h.move t
  have here := h.caller?_of_mem waits
  cases t with
  | @requested key f e joins =>
    exact .inl (after.caller?_of_mem (List.mem_append_left _ (joins.callers.symm ▸ waits)))
  | surveyed => exact .inl (after.caller?_of_mem (List.mem_append_left _ waits))
  | @callerLooked id' survey survey' floor index caller looks =>
    refine .inl ?_
    rw [caller?_setCaller]
    split
    · rename_i same
      cases same
      rw [here] at caller
      cases caller
    · exact here
  | split flight now loaded found one two =>
    have callers := two.callers.trans one.callers
    exact .inl (after.caller?_of_mem (callers.symm ▸ waits))
  | @collected c' id' f r caller flight done =>
    rw [caller?_setCaller]
    by_cases same : c = c'
    · subst same
      rw [here] at caller
      cases caller
      obtain ⟨n, member, g, number, _, completes⟩ :=
        run.completed_of_done (mem_of_flight? flight) done
      refine .inr (.inr ⟨rfl, r, by simp [here], n, member, g, ?_, completes⟩)
      exact number.trans (id_of_flight? flight)
    · simp [same, here]
  | @left c' id' caller =>
    rw [caller?_setCaller]
    by_cases same : c = c'
    · subst same
      exact .inr (.inl ⟨rfl, by simp [here]⟩)
    · simp [same, here]
  | @surveyLeft c' survey caller =>
    refine .inl ?_
    rw [caller?_setCaller]
    split
    · rename_i same
      cases same
      rw [here] at caller
      cases caller
    · exact here
  | forgot =>
    exact .inl (after.caller?_of_mem
      (Coherent.mem_callers_forget.mpr ⟨waits, .inl ⟨id, rfl⟩⟩))
  | flightLooked _ _ _ | ended _ _ | wentOn _ _ | ticked _ => exact .inl here

theorem Run.caller_waits (run : Run s moves d) {c id : Nat}
    (waits : (c, Caller.awaiting id) ∈ d.callers) :
    ∃ f ∈ d.flights, f.id = id ∧ ∀ r, f.stage = .done r →
      (∃ n ∈ moves, ∃ g, g.id = id ∧ n.Completes g r) ∧
        step s d (.collect c) = some (d.setCaller c (.answered r)) := by
  have h := run.coherent
  obtain ⟨f, member, rfl⟩ := h.awaited c id waits
  refine ⟨f, member, rfl, fun r done => ?_⟩
  obtain ⟨n, there, g, number, _, completes⟩ := run.completed_of_done member done
  refine ⟨⟨n, there, g, number, completes⟩, ?_⟩
  simp [step, h.caller?_of_mem waits, h.flight?_of_mem member, done, Stage.result?]

theorem legs_joined (h : Coherent d) {a : Action ω} (t : Transition s d a e) {f g : Flight ω}
    (was : f ∈ d.flights) (there : g ∈ e.flights) (number : g.id = f.id)
    (without : f.stage.legs = []) {i : Nat} (leg : i ∈ g.stage.legs) :
    ∃ k, k.isLeg = true ∧ (k, i) ∈ e.inFlight := by
  have new : ¬ g ∈ d.flights := by
    intro member
    cases h.eq_of_id member was number
    simp [without] at leg
  cases t with
  | @requested key id d₁ joins =>
    rcases mem_joining_cases joins there with member | rfl
    · exact absurd member new
    · simp [(Coherent.legs_opening s key none).1] at leg
  | @flightLooked f' survey survey' floor index flight now looks =>
    rcases mem_setStage_cases (h.onFloor floor) (mem_of_flight? flight) there with member | rfl
    · exact absurd member new
    · simp [Stage.legs] at leg
  | ended flight ending =>
    rcases mem_setStage_cases h (mem_of_flight? flight) there with member | rfl
    · exact absurd member new
    · simp [Stage.legs] at leg
  | @wentOn f' stage world flight onward =>
    rcases mem_setStage_cases (h.onFloor { d.floor with world }) (mem_of_flight? flight) there
      with member | rfl
    · exact absurd member new
    · simp [onward.going.2.2] at leg
  | @split f' survey listings first second diagnostics i' j' d₁ d₂ flight now loaded found one
      two =>
    have coherent := ((h.joining one).1.joining two).1
    rcases mem_setStage_cases coherent (two.mem (one.mem (mem_of_flight? flight))) there
      with member | rfl
    · rcases mem_joining_cases two member with member | rfl
      · rcases mem_joining_cases one member with member | rfl
        · exact absurd member new
        · simp [(Coherent.legs_opening s _ _).1] at leg
      · simp [(Coherent.legs_opening s _ _).1] at leg
    · simp only [Stage.legs, List.mem_cons, List.not_mem_nil, or_false] at leg
      rcases leg with rfl | rfl
      · obtain ⟨k, same, entry⟩ := one.entry
        exact ⟨k, isLeg_of_beq same, two.quiet.2.2 _ entry⟩
      · obtain ⟨k, same, entry⟩ := two.entry
        exact ⟨k, isLeg_of_beq same, entry⟩
  | forgot => exact absurd (Coherent.mem_flights_forget.mp there).1 new
  | surveyed | callerLooked _ _ | collected _ _ _ | left _ | surveyLeft _ | ticked _ =>
    exact absurd there new

theorem Ending.of_combining {f : Flight ω} {r : PriceResult} {i j : Nat} (ending : Ending s d f r)
    (stage : f.stage = .combining i j) : ∃ g h first second, d.flight? i = some g ∧
      g.stage = .done first ∧ d.flight? j = some h ∧ h.stage = .done second ∧
        r = (do combine f.key.pair (← first) (← second)) := by
  cases ending with
  | combined now one oneDone two twoDone =>
    rw [now] at stage
    cases stage
    exact ⟨_, _, _, _, one, oneDone, two, twoDone, rfl⟩
  | unfound now _ _ | exhausted now | priced now _ _ | refused now _ _ _ =>
    rw [now] at stage
    cases stage

theorem Run.legs_completed (run : Run s moves d) {f : Flight ω} {r : PriceResult} {i j : Nat}
    (ending : Ending s d f r) (stage : f.stage = .combining i j) : ∃ first second,
      r = (do combine f.key.pair (← first) (← second)) ∧
        (∃ n ∈ moves, ∃ g, g.id = i ∧ n.Completes g first) ∧
        ∃ n ∈ moves, ∃ g, g.id = j ∧ n.Completes g second := by
  obtain ⟨g, h, first, second, one, oneDone, two, twoDone, result⟩ := ending.of_combining stage
  obtain ⟨n, member, g', number, _, completes⟩ :=
    run.completed_of_done (mem_of_flight? one) oneDone
  obtain ⟨n', member', h', number', _, completes'⟩ :=
    run.completed_of_done (mem_of_flight? two) twoDone
  exact ⟨first, second, result, ⟨n, member, g', number.trans (id_of_flight? one), completes⟩,
    n', member', h', number'.trans (id_of_flight? two), completes'⟩

/-- Equal requests share one flight, which runs once and publishes once, and everybody who waits
for it is given what it published: in every run, whatever move comes next. -/
theorem equal_requests_share_one_flight (run : Run s moves d) {a : Action ω} (whole : a.IsPublic)
    (step : step s d a = some e) : Shares s moves ⟨d, a, e⟩ := by
  have h := run.coherent
  have t := transition_of_step step
  have after := h.move t
  have next : Run s (moves ++ [⟨d, a, e⟩]) e := run.move whole step
  exact {
    oneEach := after.oneEach
    underWay := after.underWay
    startedOnce := by
      intro f starts
      have new := (started_move h t starts).1
      refine ⟨fun n member g earlier same => ?_, fun g there same => ?_⟩
      · have below := run.started member earlier
        omega
      · exact after.eq_of_id there starts.1 same
    course := by
      intro f was g there number
      obtain ⟨key, same | follows⟩ := course h t was there number
      · exact ⟨key, .inl same⟩
      · exact ⟨key, .inr ⟨follows, follows.ahead_lt⟩⟩
    searchedOnce := by
      intro f searches
      obtain ⟨was, searching, _⟩ := searches
      constructor
      · refine Bool.eq_false_iff.mpr fun part => ?_
        have ended := run.leg_unsearched was part
        simp [ended] at searching
      · intro n member g earlier same
        have ended := (run.searched member earlier).2 f was same.symm
        simp [ended] at searching
    legsUnsearched := fun f member part => next.leg_unsearched member part
    completedOnce := by
      intro f r completes n member g q earlier same
      obtain ⟨was, going, _⟩ := completes
      have done := (run.completed member earlier).2 f was same.symm
      rw [done] at going
      cases going
    removed := by
      intro f r completes
      have was := completes.1
      have going := completes.2.1
      obtain ⟨_, _, rfl⟩ := completed_move h t completes
      exact ⟨(h.underWay _ _).mpr ⟨f, was, rfl, rfl, going⟩, h.mem_inFlight_complete was going r⟩
    published := by
      intro f r completes
      obtain ⟨action, _, rfl⟩ := completed_move h t completes
      refine ⟨rfl, rfl, fun g q also => ?_⟩
      obtain ⟨action', _, same⟩ := completed_move h t also
      rw [action] at action'
      have one : g = f := h.eq_of_id also.1 completes.1 (Action.advance.inj action').symm
      subst one
      obtain ⟨_, _, g', there, number, stage⟩ := also
      obtain ⟨_, _, f', there', number', stage'⟩ := completes
      cases after.eq_of_id there there' (number.trans number'.symm)
      rw [stage] at stage'
      exact ⟨rfl, Stage.done.inj stage'⟩
    quiet := by
      intro nothing
      rcases complete_or_quiet h t with ⟨f, r, completes⟩ | quiet
      · exact absurd completes (nothing f r)
      · exact quiet
    joined := by
      intro key request
      subst request
      cases t with
      | @requested key id e joins =>
        obtain ⟨k, same, entry⟩ := joins.entry
        refine ⟨k, id, same, entry, after.caller?_of_mem ?_⟩
        have number : e.nextCaller = d.nextCaller := by cases joins <;> rfl
        rw [← number]
        exact List.mem_append_right _ List.mem_cons_self
    legsJoined := fun f was g there number without i leg =>
      legs_joined h t was there number without leg
    waiting := fun c id waits => run.caller_waits waits
    answered := fun c id waits => run.caller_move step waits
    combined := by
      intro f r i j completes stage
      exact run.legs_completed (completed_move h t completes).2.1 stage }

/-- Two callers ask for one price, and the last move ends the flight that they share. -/
theorem two_callers_share_prompt_flight : ∃ moves d e,
    Run (promptSetup [.of "BTC" "USD"]) moves d ∧ d.callers.length = 2 ∧ d.inFlight.length = 1 ∧
      step (promptSetup [.of "BTC" "USD"]) d (.advance 0) = some e ∧
      e.feed.completions.length = 1 ∧
      Shares (promptSetup [.of "BTC" "USD"]) moves ⟨d, .advance 0, e⟩ := by
  have run := Run.start (s := promptSetup [.of "BTC" "USD"]) promptFloor
    |>.move (a := .request { pair := .of "BTC" "USD" }) rfl rfl
    |>.move (a := .request { pair := .of "BTC" "USD" }) rfl rfl
    |>.move (a := .lookup (.flight 0) 0) trivial rfl
    |>.move (a := .lookup (.flight 0) 0) trivial rfl
    |>.move (a := .lookup (.flight 0) 0) trivial rfl
    |>.move (a := .advance 0) trivial rfl
    |>.move (a := .advance 0) trivial rfl
  exact ⟨_, _, _, run, by rfl, by rfl, by rfl, by rfl,
    equal_requests_share_one_flight run trivial rfl⟩

end PriceDesk.Desk
