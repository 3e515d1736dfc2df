import PriceDesk.Proofs.Desk.Waiting

namespace PriceDesk

variable {ω : Type}

def Move.Given (m : Move ω) (moves : List (Move ω)) (r : PriceResult) : Prop :=
  ∃ n ∈ moves, n.action = .collect m.before.nextCaller ∧
    n.after.caller? m.before.nextCaller = some (.answered r)

namespace Desk

variable {s : Setup ω} {d e : Desk ω} {moves : List (Move ω)} {key : RequestKey}

theorem Joining.nextCaller {leg : Option Leg} {id : Nat} (joins : Joining s d key leg id e) :
    e.nextCaller = d.nextCaller := by
  cases joins <;> rfl

theorem awaiting_move (h : Coherent d) {a : Action ω} (t : Transition s d a e) {c id : Nat}
    (waits : (c, Caller.awaiting id) ∈ e.callers) :
    (c, Caller.awaiting id) ∈ d.callers ∨
      c = d.nextCaller ∧ ∃ key, a = .request key ∧ Keyed e id key := by
  have number : ∀ {c' : Nat} {x : Caller ω}, (∀ f, x ≠ .awaiting f) →
      (c, Caller.awaiting id) ∈ (d.setCaller c' x).callers →
      (c, Caller.awaiting id) ∈ d.callers := by
    intro c' x idle member
    rcases Coherent.mem_setCaller.mp member with ⟨was, _⟩ | ⟨same, _⟩
    · exact was
    · cases same
      exact absurd rfl (idle id)
  cases t with
  | @requested key f e joins =>
    have keyed := joins.keyed h
    rcases List.mem_append.mp waits with was | last
    · exact .inl (joins.callers ▸ was)
    · cases List.mem_singleton.mp last
      exact .inr ⟨joins.nextCaller, key, rfl, keyed⟩
  | surveyed =>
    rcases List.mem_append.mp waits with was | last
    · exact .inl was
    · cases List.mem_singleton.mp last
  | callerLooked caller looks => exact .inl (number (by simp) waits)
  | split flight stage loaded found one two =>
    exact .inl (one.callers ▸ two.callers ▸ waits)
  | collected caller flight stage => exact .inl (number (by simp) waits)
  | left caller => exact .inl (number (by simp) waits)
  | surveyLeft caller => exact .inl (number (by simp) waits)
  | forgot => exact .inl (Coherent.mem_callers_forget.mp waits).1
  | flightLooked _ _ _ | ended _ _ | wentOn _ _ | ticked _ => exact .inl waits

theorem nextCaller_le_of_move {a : Action ω} (t : Transition s d a e) :
    d.nextCaller ≤ e.nextCaller := by
  cases t with
  | requested joins => exact joins.nextCaller ▸ Nat.le_succ _
  | surveyed => exact Nat.le_succ _
  | split flight stage loaded found one two =>
    exact Nat.le_of_eq (two.nextCaller.trans one.nextCaller).symm
  | flightLooked _ _ _ | callerLooked _ _ | ended _ _ | wentOn _ _ | collected _ _ _ | left _
  | surveyLeft _ | ticked _ | forgot => exact Nat.le_refl _

theorem nextCaller_lt_of_request (t : Transition s d (.request key) e) :
    d.nextCaller < e.nextCaller := by
  cases t with
  | requested joins => exact joins.nextCaller ▸ Nat.lt_succ_self _

theorem Run.nextCaller_le (run : Run s moves d) {m : Move ω} (member : m ∈ moves) :
    m.after.nextCaller ≤ d.nextCaller := by
  induction run with
  | start floor => cases member
  | move run whole step ih =>
    rcases List.mem_append.mp member with earlier | last
    · exact Nat.le_trans (ih earlier) (nextCaller_le_of_move (transition_of_step step))
    · cases List.mem_singleton.mp last
      exact Nat.le_refl _

theorem Run.nextCaller_lt (run : Run s moves d) {m : Move ω} (member : m ∈ moves)
    (request : m.action = .request key) : m.before.nextCaller < d.nextCaller := by
  have t := (run.move_of_mem member).2.2
  rw [request] at t
  exact Nat.lt_of_lt_of_le (nextCaller_lt_of_request t) (run.nextCaller_le member)

theorem Run.waits_since (run : Run s moves d) {m : Move ω} (member : m ∈ moves)
    (request : m.action = .request key) {id : Nat}
    (waits : (m.before.nextCaller, Caller.awaiting id) ∈ d.callers) :
    m.after.caller? m.before.nextCaller = some (.awaiting id) := by
  induction run with
  | start floor => cases member
  | @move moves d e a run whole step ih =>
    have h := run.coherent
    have t := transition_of_step step
    rcases List.mem_append.mp member with earlier | last
    · rcases awaiting_move h t waits with was | ⟨new, _⟩
      · exact ih earlier was
      · exact absurd new (Nat.ne_of_lt (run.nextCaller_lt earlier request))
    · cases List.mem_singleton.mp last
      exact (h.move t).caller?_of_mem waits

theorem Run.asked_for (run : Run s moves d) {m : Move ω} (member : m ∈ moves)
    (request : m.action = .request key) {id : Nat}
    (waits : (m.before.nextCaller, Caller.awaiting id) ∈ d.callers) : Keyed d id key := by
  obtain ⟨h, _, t⟩ := run.move_of_mem member
  have since := mem_of_caller? (run.waits_since member request waits)
  have keyed : Keyed m.after id key := by
    rcases awaiting_move h t since with was | ⟨_, key', same, keyed⟩
    · exact absurd rfl (Nat.ne_of_lt (h.callersBelow _ was))
    · cases request.symm.trans same
      exact keyed
  exact run.settled member keyed fun f g key _ same => key ▸ same

theorem Run.collected (run : Run s moves d) {m : Move ω} (member : m ∈ moves)
    (request : m.action = .request key) {r : PriceResult} (given : m.Given moves r) :
    ∃ earlier later e f, moves = earlier ++ later ∧ Run s earlier e ∧
      opened earlier e = opened moves d ∧ m ∈ earlier ∧
        (m.before.nextCaller, Caller.awaiting f.id) ∈ e.callers ∧ f ∈ e.flights ∧
          f.stage = .done r := by
  induction run with
  | start floor => cases member
  | @move moves d e a run whole step ih =>
    have opens : opened moves d = opened (moves ++ [⟨d, a, e⟩]) e :=
      (opened_append moves ⟨d, a, e⟩ e).symm
    obtain ⟨n, among, collects, answered⟩ := given
    rcases List.mem_append.mp member with earlier | last
    · rcases List.mem_append.mp among with earlier' | last'
      · obtain ⟨first, rest, e', f, rfl, run', same, found⟩ :=
          ih earlier ⟨n, earlier', collects, answered⟩
        exact ⟨first, rest ++ [⟨d, a, e⟩], e', f, List.append_assoc _ _ _, run', same.trans opens,
          found⟩
      · cases List.mem_singleton.mp last'
        cases collects
        cases transition_of_step step with
        | @collected c id f r' caller flight stage =>
          rw [caller?_setCaller, if_pos rfl, caller] at answered
          cases answered
          cases id_of_flight? flight
          exact ⟨moves, _, d, f, rfl, run, opens, earlier, mem_of_caller? caller,
            mem_of_flight? flight, stage⟩
    · cases List.mem_singleton.mp last
      rcases List.mem_append.mp among with earlier' | last'
      -- Nobody is given a result before asking.
      · obtain ⟨h, _, t⟩ := run.move_of_mem earlier'
        have below := (h.move t).callersBelow _ (mem_of_caller? answered)
        exact absurd (run.nextCaller_le earlier') (Nat.not_le_of_lt below)
      · cases List.mem_singleton.mp last'
        cases request.symm.trans collects

theorem Run.asked_of_whole (run : Run s moves d) {f : Flight ω} (member : f ∈ d.flights)
    (whole : f.key.role = .whole) : ∃ m ∈ moves, m.action = .request f.key := by
  induction run generalizing f with
  | start floor => cases member
  | move run _ step ih =>
    cases origin run.coherent (transition_of_step step) member with
    | kept was =>
      obtain ⟨m, among, request⟩ := ih was whole
      exact ⟨m, List.mem_append_left _ among, request⟩
    | moved was _ key _ =>
      obtain ⟨m, among, request⟩ := ih was (key ▸ whole)
      exact ⟨m, List.mem_append_left _ among, key ▸ request⟩
    | asked _ request _ => exact ⟨_, List.mem_append_right _ List.mem_cons_self, request⟩
    | leg _ part _ =>
      rw [RequestKey.isLeg, whole] at part
      cases part

theorem Run.given_or_waits (run : Run s moves d) (patient : ∀ m ∈ moves, m.IsPatient)
    {m : Move ω} (member : m ∈ moves) (request : m.action = .request key) :
    (∃ r, m.Given moves r) ∨ ∃ id, (m.before.nextCaller, Caller.awaiting id) ∈ d.callers := by
  induction run with
  | start floor => cases member
  | @move moves d e a run whole step ih =>
    rcases List.mem_append.mp member with earlier | last
    · have patient' := fun n among => patient n (List.mem_append_left _ among)
      rcases ih patient' earlier with ⟨r, n, among, given⟩ | ⟨id, waits⟩
      · exact .inl ⟨r, n, List.mem_append_left _ among, given⟩
      · rcases run.caller_move step waits with still | ⟨drops, _⟩ | ⟨collects, r, answered, _⟩
        · exact .inr ⟨id, mem_of_caller? still⟩
        · obtain ⟨survey, surveying, _⟩ :=
            patient _ (List.mem_append_right _ List.mem_cons_self) _ drops
          have waiting := run.coherent.caller?_of_mem waits
          rw [waiting] at surveying
          cases surveying
        · exact .inl ⟨r, _, List.mem_append_right _ List.mem_cons_self, collects, answered⟩
    · cases List.mem_singleton.mp last
      cases request
      cases transition_of_step step with
      | @requested key id e joins =>
        refine .inr ⟨id, ?_⟩
        rw [← joins.nextCaller]
        exact List.mem_append_right _ List.mem_cons_self

end Desk

end PriceDesk
