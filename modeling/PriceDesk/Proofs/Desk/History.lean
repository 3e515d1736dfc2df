import PriceDesk.Proofs.Desk.Recency
import PriceDesk.Proofs.Desk.Runs

namespace PriceDesk

variable {ω : Type}

def Move.Starts (m : Move ω) (f : Flight ω) : Prop :=
  f ∈ m.after.flights ∧ ∀ g ∈ m.before.flights, g.id ≠ f.id

def Move.Searches (m : Move ω) (f : Flight ω) : Prop :=
  f ∈ m.before.flights ∧ f.stage.survey?.isSome = true ∧
    ∃ g ∈ m.after.flights, g.id = f.id ∧ g.stage.survey? = none

def Move.Finds (s : Setup ω) (m : Move ω) (id : Nat) (key : RequestKey) (found : Option Match) :
    Prop :=
  m.action = .advance id ∧ ∃ f survey listings diagnostics, m.before.flight? id = some f ∧
    (f.key == key) = true ∧ f.stage = .surveying survey ∧ survey.results? = some listings ∧
      Discovery.conclude s.options s.registry f.key.pair f.key.network listings =
        (found, diagnostics)

def Move.Completes (m : Move ω) (f : Flight ω) (r : PriceResult) : Prop :=
  f ∈ m.before.flights ∧ f.stage.result? = none ∧
    ∃ g ∈ m.after.flights, g.id = f.id ∧ g.stage = .done r

/-- The move completes the flight, publishes its result and records it as the last one. -/
structure Move.Reports (m : Move ω) (f : Flight ω) (r : PriceResult) : Prop where
  completes : m.Completes f r
  published : m.after.feed = m.before.feed.push ⟨f.key, r⟩
  recorded : ∀ key, (f.key == key) = true → m.after.lastResults.get? key = some ⟨f.key, r⟩

namespace Desk

variable {s : Setup ω} {d e : Desk ω} {moves : List (Move ω)}

def Settled (d : Desk ω) (id : Nat) (P : Flight ω → Prop) : Prop :=
  id < d.nextFlight ∧ ∀ f ∈ d.flights, f.id = id → P f

theorem settled_of_mem (h : Coherent d) {f : Flight ω} (there : f ∈ d.flights)
    {P : Flight ω → Prop} (now : P f) : Settled d f.id P := by
  refine ⟨h.below f there, fun g there' number => ?_⟩
  cases h.eq_of_id there' there number
  exact now

theorem settled_started (h : Coherent d) {key : RequestKey} {leg : Option Leg}
    {P : Flight ω → Prop} (new : P { id := d.nextFlight, key, stage := opening s key leg }) :
    Settled (d.started s key leg) d.nextFlight P := by
  refine ⟨Nat.lt_succ_self _, fun g there number => ?_⟩
  rcases List.mem_cons.mp there with rfl | was
  · exact new
  · exact absurd number (Nat.ne_of_lt (h.below g was))

/-- Flights keep their numbers and new ones have new numbers, so that what a move makes of the
flights that were there is all that becomes of the one with a number. -/
theorem Settled.follow {id : Nat} {P Q : Flight ω → Prop} (settled : Settled d id P)
    (h : Coherent d) {a : Action ω} (t : Transition s d a e)
    (next : ∀ f ∈ d.flights, f.id = id → ∀ g ∈ e.flights, f.id = g.id → P f → Q g) :
    Settled e id Q := by
  obtain ⟨below, now⟩ := settled
  refine ⟨Nat.lt_of_lt_of_le below (nextFlight_le t), fun g there number => ?_⟩
  cases origin h t there with
  | kept was => exact next g was number g there rfl (now g was number)
  | moved was same _ _ =>
    have own := same.trans number
    exact next _ was own g there same (now _ was own)
  | asked new _ _ | leg new _ _ =>
    exact absurd number (Nat.ne_of_gt (Nat.lt_of_lt_of_le below new))

theorem Settled.joining {id j : Nat} {P : Flight ω → Prop} (settled : Settled d id P)
    {key : RequestKey} {leg : Option Leg} (joins : Joining s d key leg j e) : Settled e id P := by
  refine ⟨Nat.lt_of_lt_of_le settled.1 (nextFlight_joining joins), ?_⟩
  intro f there number
  rcases mem_joining_cases joins there with was | rfl
  · exact settled.2 f was number
  · exact absurd number (Nat.ne_of_gt settled.1)

theorem Settled.setStage (h : Coherent d) {id number : Nat} {P : Flight ω → Prop}
    (settled : Settled d id P) {stage : Stage ω}
    (restaged : ∀ f ∈ d.flights, f.id = number → P f → P { f with stage }) :
    Settled (d.setStage number stage) id P := by
  refine ⟨settled.1, ?_⟩
  intro g there same
  rcases h.mem_setStage.mp there with ⟨was, _⟩ | ⟨f, was, own, rfl⟩
  · exact settled.2 g was same
  · exact restaged f was own (settled.2 f was same)

/-- What holds of the flights for a request that are under way and of a new one holds of the one
that somebody comes to. -/
theorem Joining.settled (h : Coherent d) {key : RequestKey} {leg : Option Leg} {id : Nat}
    {P : Flight ω → Prop} (joins : Joining s d key leg id e)
    (old : ∀ f ∈ d.flights, f.stage.result? = none → (f.key == key) = true → P f)
    (new : P { id := d.nextFlight, key, stage := opening s key leg }) : Settled e id P := by
  cases joins with
  | joined entry same =>
    obtain ⟨f, member, rfl, rfl, going⟩ := (h.underWay _ _).mp entry
    exact settled_of_mem h member (old f member going same)
  | started _ => exact settled_started h new

theorem going_of_follows_done {x : Stage ω} {r : PriceResult}
    (follows : Stage.Follows x (.done r)) : x.result? = none := by
  cases follows with
  | ends going => exact going

theorem done_of_follows {x y : Stage ω} {r : PriceResult} (follows : Stage.Follows x y)
    (done : x = .done r) : y = .done r := by
  subst done
  cases follows with
  | ends going => cases going

theorem course (h : Coherent d) {a : Action ω} (t : Transition s d a e) {f g : Flight ω}
    (was : f ∈ d.flights) (there : g ∈ e.flights) (number : f.id = g.id) :
    f.key = g.key ∧ (f.stage = g.stage ∨ Stage.Follows f.stage g.stage) := by
  have below := h.below f was
  cases origin h t there with
  | kept member =>
    cases h.eq_of_id was member number
    exact ⟨rfl, .inl rfl⟩
  | moved member same key follows =>
    cases h.eq_of_id was member (number.trans same.symm)
    exact ⟨key, .inr follows⟩
  | asked new _ _ => omega
  | leg new _ _ => omega

theorem Settled.move {id : Nat} {P : Flight ω → Prop} (settled : Settled d id P) (h : Coherent d)
    {a : Action ω} (t : Transition s d a e)
    (stable : ∀ f g : Flight ω, f.key = g.key → Stage.Follows f.stage g.stage → P f → P g) :
    Settled e id P := by
  refine settled.follow h t fun f was _ g there number now => ?_
  obtain ⟨key, same | follows⟩ := course h t was there number
  · obtain ⟨i, k, stage⟩ := f
    cases number
    cases key
    cases same
    exact now
  · exact stable f g key follows now

theorem started_move (h : Coherent d) {a : Action ω} (t : Transition s d a e) {f : Flight ω}
    (starts : Move.Starts ⟨d, a, e⟩ f) :
    d.nextFlight ≤ f.id ∧
      (a = .request f.key ∧ f.stage = opening s f.key none ∨
        ∃ l, f.key.isLeg = true ∧ f.stage = opening s f.key (some l)) := by
  obtain ⟨there, new⟩ := starts
  cases origin h t there with
  | kept member => exact absurd rfl (new f member)
  | moved member same _ _ => exact absurd same (new _ member)
  | asked number request stage => exact ⟨number, .inl ⟨request, stage⟩⟩
  | leg number part stage => exact ⟨number, .inr ⟨_, part, stage⟩⟩

theorem completed_move (h : Coherent d) {a : Action ω} (t : Transition s d a e) {f : Flight ω}
    {r : PriceResult} (completes : Move.Completes ⟨d, a, e⟩ f r) :
    a = .advance f.id ∧ Ending s d f r ∧ e = d.complete f r := by
  obtain ⟨member, going, g, there, number, stage⟩ := completes
  -- Unless the move restages this very flight as ended, `g` is `f` and still under way.
  have kept : ¬ g ∈ d.flights := by
    intro was
    cases h.eq_of_id was member number
    rw [stage] at going
    cases going
  cases t with
  | @requested key id d₁ joins =>
    rcases mem_joining_cases joins there with was | rfl
    · exact absurd was kept
    · cases stage
  | @flightLooked f' survey survey' floor index flight now looks =>
    rcases mem_setStage_cases (h.onFloor floor) (mem_of_flight? flight) there with was | rfl
    · exact absurd was kept
    · cases stage
  | @ended f' r' flight ending =>
    have member' := mem_of_flight? flight
    rcases mem_setStage_cases h member' there with was | rfl
    · exact absurd was kept
    · cases h.eq_of_id member' member number
      cases stage
      exact ⟨rfl, ending, rfl⟩
  | @wentOn f' stage' world flight onward =>
    rcases mem_setStage_cases (h.onFloor { d.floor with world }) (mem_of_flight? flight) there
      with was | rfl
    · exact absurd was kept
    · have open_ := onward.going.2.1
      rw [show stage' = .done r from stage] at open_
      cases open_
  | @split f' survey listings first second diagnostics i j d₁ d₂ flight now loaded found one two =>
    have coherent := ((h.joining one).1.joining two).1
    rcases mem_setStage_cases coherent (two.mem (one.mem (mem_of_flight? flight))) there
      with was | rfl
    · rcases mem_joining_cases two was with was | rfl
      · rcases mem_joining_cases one was with was | rfl
        · exact absurd was kept
        · cases stage
      · cases stage
    · cases stage
  | forgot => exact absurd (Coherent.mem_flights_forget.mp there).1 kept
  | surveyed | callerLooked _ _ | collected _ _ _ | left _ | surveyLeft _ | ticked _ =>
    exact absurd there kept

theorem Joining.quiet {key : RequestKey} {leg : Option Leg} {id : Nat}
    (joins : Joining s d key leg id e) :
    e.feed = d.feed ∧ e.lastResults = d.lastResults ∧
      ∀ entry ∈ d.inFlight, entry ∈ e.inFlight := by
  cases joins with
  | joined _ _ => exact ⟨rfl, rfl, fun _ member => member⟩
  | started _ => exact ⟨rfl, rfl, fun _ => List.mem_cons_of_mem _⟩

theorem complete_or_quiet (h : Coherent d) {a : Action ω} (t : Transition s d a e) :
    (∃ f r, Move.Completes ⟨d, a, e⟩ f r) ∨
      (e.feed = d.feed ∧ e.lastResults = d.lastResults ∧
        ∀ entry ∈ d.inFlight, entry ∈ e.inFlight) := by
  cases t with
  | requested joins =>
    have quiet := joins.quiet
    exact .inr quiet
  | @ended f r flight ending =>
    have member := mem_of_flight? flight
    refine .inl ⟨f, r, member, ending.going, { f with stage := .done r }, ?_, rfl, rfl⟩
    exact h.restaged member (.done r)
  | split flight now loaded found one two =>
    obtain ⟨feed, last, kept⟩ := one.quiet
    obtain ⟨feed', last', kept'⟩ := two.quiet
    exact .inr ⟨feed'.trans feed, last'.trans last, fun entry member => kept' _ (kept _ member)⟩
  | surveyed | flightLooked _ _ _ | callerLooked _ _ | wentOn _ _ | collected _ _ _ | left _
  | surveyLeft _ | ticked _ | forgot => exact .inr ⟨rfl, rfl, fun _ member => member⟩

theorem feed_move (h : Coherent d) {a : Action ω} (t : Transition s d a e) :
    (e.feed = d.feed ∧ e.lastResults = d.lastResults) ∨
      ∃ c, e.feed = d.feed.push c ∧ e.lastResults = d.lastResults.insert c := by
  rcases complete_or_quiet h t with ⟨f, r, completes⟩ | ⟨feed, last, _⟩
  · obtain ⟨_, _, rfl⟩ := completed_move h t completes
    exact .inr ⟨⟨f.key, r⟩, rfl, rfl⟩
  · exact .inl ⟨feed, last⟩

theorem Run.lastResults_eq (run : Run s moves d) :
    d.lastResults = .of LastResults.defaultCapacity d.feed.completions := by
  induction run with
  | start floor => rfl
  | move run whole step ih =>
    rcases feed_move run.coherent (transition_of_step step) with ⟨feed, last⟩ | ⟨c, feed, last⟩
    · rw [feed, last, ih]
    · rw [feed, last, ih, Feed.push, LastResults.of_concat]

theorem Run.reported (run : Run s moves d) {m : Move ω} (member : m ∈ moves) {f : Flight ω}
    {r : PriceResult} (completes : m.Completes f r) :
    m.Reports f r ∧ ⟨f.key, r⟩ ∈ d.feed.completions := by
  induction run with
  | start floor => cases member
  | @move moves d e a run whole step ih =>
    have h := run.coherent
    have t := transition_of_step step
    rcases List.mem_append.mp member with earlier | last
    · obtain ⟨reports, published⟩ := ih earlier
      refine ⟨reports, ?_⟩
      rcases feed_move h t with ⟨feed, _⟩ | ⟨c, feed, _⟩
      · rwa [feed]
      · rw [feed]
        exact List.mem_append_left _ published
    · cases List.mem_singleton.mp last
      obtain ⟨_, _, rfl⟩ := completed_move h t completes
      refine ⟨⟨completes, rfl, fun key same => ?_⟩, List.mem_append_right _ List.mem_cons_self⟩
      have remembered : (d.complete f r).lastResults = d.lastResults.insert ⟨f.key, r⟩ := rfl
      rw [remembered, run.lastResults_eq]
      exact LastResults.get?_insert (by decide) same

theorem Run.started (run : Run s moves d) {m : Move ω} (member : m ∈ moves) {f : Flight ω}
    (starts : m.Starts f) : f.id < d.nextFlight := by
  induction run with
  | start floor => cases member
  | move run whole step ih =>
    have t := transition_of_step step
    rcases List.mem_append.mp member with member | last
    · exact Nat.lt_of_lt_of_le (ih member) (nextFlight_le t)
    · cases List.mem_singleton.mp last
      exact (run.coherent.move t).below f starts.1

theorem Run.settled (run : Run s moves d) {m : Move ω} (member : m ∈ moves) {id : Nat}
    {P : Flight ω → Prop} (settled : Settled m.after id P)
    (stable : ∀ f g : Flight ω, f.key = g.key → Stage.Follows f.stage g.stage → P f → P g) :
    Settled d id P := by
  induction run with
  | start floor => cases member
  | move run whole step ih =>
    rcases List.mem_append.mp member with member | last
    · exact (ih member).move run.coherent (transition_of_step step) stable
    · cases List.mem_singleton.mp last
      exact settled

theorem Run.searched (run : Run s moves d) {m : Move ω} (member : m ∈ moves) {f : Flight ω}
    (searches : m.Searches f) : Settled d f.id fun g => g.stage.survey? = none := by
  obtain ⟨h, _, t⟩ := run.move_of_mem member
  obtain ⟨_, _, g, there, number, ended⟩ := searches
  rw [← number]
  exact run.settled member (settled_of_mem (h.move t) there ended)
    fun f g _ follows ended => (follows.ahead_lt ended).1

theorem Run.completed (run : Run s moves d) {m : Move ω} (member : m ∈ moves) {f : Flight ω}
    {r : PriceResult} (completes : m.Completes f r) :
    Settled d f.id fun g => g.stage = .done r := by
  obtain ⟨h, _, t⟩ := run.move_of_mem member
  obtain ⟨_, _, g, there, number, done⟩ := completes
  rw [← number]
  exact run.settled member (settled_of_mem (h.move t) there done) fun f g _ => done_of_follows

theorem Run.underWay_or_completed (run : Run s moves d) {m : Move ω} (member : m ∈ moves)
    {k : RequestKey} {id : Nat} (entry : (k, id) ∈ m.after.inFlight) :
    (k, id) ∈ d.inFlight ∨ ∃ n ∈ moves, ∃ f r, f.id = id ∧ n.Completes f r := by
  induction run with
  | start floor => cases member
  | @move moves d e a run whole step ih =>
    have h := run.coherent
    have t := transition_of_step step
    rcases List.mem_append.mp member with earlier | last
    · rcases ih earlier with still | ⟨n, among, completes⟩
      · rcases complete_or_quiet h t with ⟨f, r, completes⟩ | ⟨_, _, kept⟩
        · by_cases own : f.id = id
          · exact .inr ⟨_, List.mem_append_right _ List.mem_cons_self, f, r, own, completes⟩
          · obtain ⟨_, _, rfl⟩ := completed_move h t completes
            refine .inl ((h.mem_inFlight_complete completes.1 completes.2.1 r (k, id)).mpr
              ⟨still, fun same => own ?_⟩)
            cases same
            rfl
        · exact .inl (kept _ still)
      · exact .inr ⟨n, List.mem_append_left _ among, completes⟩
    · cases List.mem_singleton.mp last
      exact .inl entry

theorem Run.completed_of_done (run : Run s moves d) {g : Flight ω} {r : PriceResult}
    (member : g ∈ d.flights) (done : g.stage = .done r) :
    ∃ m ∈ moves, ∃ f, f.id = g.id ∧ f.key = g.key ∧ m.Completes f r := by
  induction run generalizing g with
  | start floor => cases member
  | @move moves d e a run whole step ih =>
    have h := run.coherent
    have earlier : ∀ {f : Flight ω}, f ∈ d.flights → f.stage = .done r →
        ∃ m ∈ moves ++ [⟨d, a, e⟩], ∃ f', f'.id = f.id ∧ f'.key = f.key ∧ m.Completes f' r := by
      intro f was done
      obtain ⟨m, there, found⟩ := ih was done
      exact ⟨m, List.mem_append_left _ there, found⟩
    cases origin h (transition_of_step step) member with
    | kept was => exact earlier was done
    | @moved f was number key follows =>
      have going := going_of_follows_done (done ▸ follows)
      exact ⟨_, List.mem_append_right _ List.mem_cons_self, f, number, key, was, going, g, member,
        number.symm, done⟩
    | asked _ _ stage =>
      rw [done] at stage
      cases stage
    | leg _ _ stage =>
      rw [done] at stage
      cases stage

theorem Run.completed_later (run : Run s moves d) {m n : Move ω} (member : m ∈ moves)
    (other : n ∈ moves) {f g : Flight ω} {r : PriceResult} (there : f ∈ m.after.flights)
    (going : f.stage.result? = none) (completes : n.Completes g r) (same : g.id = f.id) :
    ∃ earlier later, moves = earlier ++ n :: later ∧ m ∈ earlier := by
  obtain ⟨front, back, rfl⟩ := List.append_of_mem member
  have never : ¬ n ∈ front ++ [m] := by
    intro sooner
    have done := (run.cut.2.completed sooner completes).2 f there same.symm
    rw [done] at going
    cases going
  have last : n ∈ back := by
    rcases List.mem_append.mp other with early | late
    · exact absurd (List.mem_append_left _ early) never
    · rcases List.mem_cons.mp late with now | late
      · exact absurd (List.mem_append_right _ (List.mem_singleton.mpr now)) never
      · exact late
  obtain ⟨between, later, rfl⟩ := List.append_of_mem last
  exact ⟨front ++ m :: between, later, by simp, by simp⟩

theorem Run.completes_once (run : Run s moves d) {m n : Move ω} (member : m ∈ moves)
    (other : n ∈ moves) {f g : Flight ω} {r q : PriceResult} (completes : m.Completes f r)
    (completes' : n.Completes g q) (same : f.id = g.id) : r = q := by
  induction run with
  | start floor => cases member
  | @move moves d e a run whole step ih =>
    -- A flight that an earlier move completed is not under way any more.
    have never : ∀ {n : Move ω} {f g : Flight ω} {r q : PriceResult}, n ∈ moves →
        n.Completes g q → Move.Completes ⟨d, a, e⟩ f r → f.id = g.id → False := by
      intro n f g r q earlier before now same
      have done := (run.completed earlier before).2 f now.1 same
      have going := now.2.1
      rw [done] at going
      cases going
    rcases List.mem_append.mp member with earlier | last
    · rcases List.mem_append.mp other with earlier' | last'
      · exact ih earlier earlier'
      · cases List.mem_singleton.mp last'
        exact (never earlier completes completes' same.symm).elim
    · cases List.mem_singleton.mp last
      rcases List.mem_append.mp other with earlier' | last'
      · exact (never earlier' completes' completes same).elim
      · cases List.mem_singleton.mp last'
        obtain ⟨_, _, f', there, number, stage⟩ := completes
        obtain ⟨_, _, g', there', number', stage'⟩ := completes'
        have after := run.coherent.move (transition_of_step step)
        cases after.eq_of_id there there' (number.trans (same.trans number'.symm))
        rw [stage] at stage'
        exact Stage.done.inj stage'

theorem Run.leg_unsearched (run : Run s moves d) {f : Flight ω} (member : f ∈ d.flights)
    (part : f.key.isLeg = true) : f.stage.survey? = none := by
  induction run generalizing f with
  | start floor => cases member
  | move run whole step ih =>
    cases origin run.coherent (transition_of_step step) member with
    | kept was => exact ih was part
    | moved was _ key follows => exact (follows.ahead_lt (ih was (key ▸ part))).1
    | asked _ request _ =>
      subst request
      rw [RequestKey.isLeg, show f.key.role = .whole from whole] at part
      cases part
    | leg _ _ stage =>
      rw [stage]
      rfl

end Desk

end PriceDesk
