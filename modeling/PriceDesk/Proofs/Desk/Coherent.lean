import PriceDesk.Proofs.Desk.Moves

namespace PriceDesk.Desk

variable {ω : Type} {s : Setup ω} {d e : Desk ω}

theorem ids_restage (id : Nat) (stage : Stage ω) (flights : List (Flight ω)) :
    (restage id stage flights).map (·.id) = flights.map (·.id) := by
  induction flights with
  | nil => rfl
  | cons f flights ih =>
    simp only [restage]
    split
    · rfl
    · rw [List.map_cons, ih, List.map_cons]

theorem mem_restage {id : Nat} {stage : Stage ω} {flights : List (Flight ω)} {g : Flight ω}
    (distinct : (flights.map (·.id)).Nodup) :
    g ∈ restage id stage flights ↔
      (g ∈ flights ∧ g.id ≠ id) ∨ ∃ f ∈ flights, f.id = id ∧ g = { f with stage } := by
  induction flights with
  | nil => simp [restage]
  | cons f flights ih =>
    rw [List.map_cons, List.nodup_cons] at distinct
    simp only [restage]
    by_cases same : f.id = id
    · have others : ∀ h ∈ flights, h.id ≠ id := fun h member other =>
        distinct.1 (List.mem_map.mpr ⟨h, member, other.trans same.symm⟩)
      simp only [same, BEq.rfl, if_true, List.mem_cons]
      constructor
      · intro either
        rcases either with rfl | member
        · exact .inr ⟨f, .inl rfl, same, by rw [same]⟩
        · exact .inl ⟨.inr member, others g member⟩
      · intro either
        rcases either with ⟨rfl | member, differs⟩ | ⟨h, rfl | member, number, rfl⟩
        · exact absurd same differs
        · exact .inr member
        · exact .inl (by rw [same])
        · exact absurd number (others h member)
    · simp only [beq_eq_false_iff_ne.mpr same, Bool.false_eq_true, if_false, List.mem_cons,
        ih distinct.2]
      constructor
      · intro either
        rcases either with rfl | ⟨member, differs⟩ | ⟨h, member, number, rfl⟩
        · exact .inl ⟨.inl rfl, same⟩
        · exact .inl ⟨.inr member, differs⟩
        · exact .inr ⟨h, .inr member, number, rfl⟩
      · intro either
        rcases either with ⟨rfl | member, differs⟩ | ⟨h, rfl | member, number, rfl⟩
        · exact .inl rfl
        · exact .inr (.inl ⟨member, differs⟩)
        · exact absurd number same
        · exact .inr (.inr ⟨h, member, number, rfl⟩)

structure Coherent (d : Desk ω) : Prop where
  distinct : (d.flights.map (·.id)).Nodup
  below : ∀ f ∈ d.flights, f.id < d.nextFlight
  oneEach : d.inFlight.Pairwise fun a b => (a.1 == b.1) = false
  underWay : ∀ k id, (k, id) ∈ d.inFlight ↔
    ∃ f ∈ d.flights, f.id = id ∧ f.key = k ∧ f.stage.result? = none
  legs : ∀ f ∈ d.flights, ∀ id ∈ f.stage.legs, ∃ g ∈ d.flights, g.id = id
  callersDistinct : (d.callers.map (·.1)).Nodup
  callersBelow : ∀ c ∈ d.callers, c.1 < d.nextCaller
  awaited : ∀ c id, (c, Caller.awaiting id) ∈ d.callers → ∃ f ∈ d.flights, f.id = id

namespace Coherent

theorem empty (floor : Floor ω) : Coherent { floor } where
  distinct := List.nodup_nil
  below := by simp
  oneEach := .nil
  underWay := by simp
  legs := by simp
  callersDistinct := List.nodup_nil
  callersBelow := by simp
  awaited := by simp

theorem flight?_of_mem (h : Coherent d) {f : Flight ω} (member : f ∈ d.flights) :
    d.flight? f.id = some f := by
  have distinct := h.distinct
  unfold flight?
  generalize d.flights = flights at member distinct
  induction flights with
  | nil => cases member
  | cons g flights ih =>
    rw [List.map_cons, List.nodup_cons] at distinct
    rcases List.mem_cons.mp member with rfl | member
    · simp
    · have differs : g.id ≠ f.id := fun same =>
        distinct.1 (List.mem_map.mpr ⟨f, member, same.symm⟩)
      rw [List.find?_cons_of_neg (by simpa using differs)]
      exact ih member distinct.2

theorem eq_of_id (h : Coherent d) {f g : Flight ω} (one : f ∈ d.flights) (two : g ∈ d.flights)
    (same : f.id = g.id) : f = g := by
  have found := h.flight?_of_mem one
  rw [same, h.flight?_of_mem two] at found
  exact (Option.some.inj found).symm

theorem mem_setStage (h : Coherent d) {id : Nat} {stage : Stage ω} {g : Flight ω} :
    g ∈ (d.setStage id stage).flights ↔
      (g ∈ d.flights ∧ g.id ≠ id) ∨ ∃ f ∈ d.flights, f.id = id ∧ g = { f with stage } :=
  mem_restage h.distinct

theorem restaged (h : Coherent d) {f : Flight ω} (member : f ∈ d.flights) (stage : Stage ω) :
    { f with stage } ∈ (d.setStage f.id stage).flights :=
  h.mem_setStage.mpr (.inr ⟨f, member, rfl, rfl⟩)

theorem onFloor (h : Coherent d) (floor : Floor ω) : Coherent (d.onFloor floor) where
  distinct := h.distinct
  below := h.below
  oneEach := h.oneEach
  underWay := h.underWay
  legs := h.legs
  callersDistinct := h.callersDistinct
  callersBelow := h.callersBelow
  awaited := h.awaited

theorem legs_opening (s : Setup ω) (key : RequestKey) (leg : Option Leg) :
    (opening s key leg).legs = [] ∧ (opening s key leg).result? = none := by
  cases leg <;> exact ⟨rfl, rfl⟩

theorem started (h : Coherent d) {key : RequestKey} {leg : Option Leg}
    (new : ∀ entry ∈ d.inFlight, (entry.1 == key) = false) : Coherent (d.started s key leg) where
  distinct := by
    refine List.nodup_cons.mpr ⟨?_, h.distinct⟩
    intro member
    obtain ⟨f, member, same⟩ := List.mem_map.mp member
    exact absurd same (Nat.ne_of_lt (h.below f member))
  below := by
    intro f member
    rcases List.mem_cons.mp member with rfl | member
    · exact Nat.lt_succ_self _
    · exact Nat.lt_succ_of_lt (h.below f member)
  oneEach := by
    refine List.pairwise_cons.mpr ⟨?_, h.oneEach⟩
    intro entry member
    exact BEq.comm.trans (new entry member)
  underWay := by
    intro k id
    simp only [Desk.started, List.mem_cons, h.underWay, exists_eq_or_imp, Prod.mk.injEq,
      (legs_opening s key leg).2, and_true]
    exact or_congr ⟨fun ⟨key, id⟩ => ⟨id.symm, key.symm⟩, fun ⟨id, key⟩ => ⟨key.symm, id.symm⟩⟩
      Iff.rfl
  legs := by
    intro f member id leg'
    rcases List.mem_cons.mp member with rfl | member
    · simp [(legs_opening s key leg).1] at leg'
    · obtain ⟨g, there, same⟩ := h.legs f member id leg'
      exact ⟨g, List.mem_cons_of_mem _ there, same⟩
  callersDistinct := h.callersDistinct
  callersBelow := h.callersBelow
  awaited := by
    intro c id waits
    obtain ⟨f, there, same⟩ := h.awaited c id waits
    exact ⟨f, List.mem_cons_of_mem _ there, same⟩

theorem joining (h : Coherent d) {key : RequestKey} {leg : Option Leg} {id : Nat}
    (joins : Joining s d key leg id e) : Coherent e ∧ ∃ f ∈ e.flights, f.id = id := by
  cases joins with
  | joined entry same =>
    obtain ⟨f, member, number, _⟩ := (h.underWay _ _).mp entry
    exact ⟨h, f, member, number⟩
  | started new => exact ⟨h.started new, _, List.mem_cons_self, rfl⟩

theorem there_setStage (h : Coherent d) (number : Nat) (stage : Stage ω) {id : Nat}
    (there : ∃ g ∈ d.flights, g.id = id) : ∃ g ∈ (d.setStage number stage).flights, g.id = id := by
  obtain ⟨g, member, rfl⟩ := there
  by_cases same : g.id = number
  · exact ⟨_, h.mem_setStage.mpr (.inr ⟨g, member, same, rfl⟩), rfl⟩
  · exact ⟨g, h.mem_setStage.mpr (.inl ⟨member, same⟩), rfl⟩

theorem below_setStage (h : Coherent d) (number : Nat) (stage : Stage ω) :
    ∀ g ∈ (d.setStage number stage).flights, g.id < d.nextFlight := by
  intro g there
  rcases h.mem_setStage.mp there with ⟨member, _⟩ | ⟨old, member, _, rfl⟩
  · exact h.below g member
  · exact h.below old member

theorem legs_setStage (h : Coherent d) {number : Nat} {stage : Stage ω}
    (legs : ∀ id ∈ stage.legs, ∃ g ∈ d.flights, g.id = id) :
    ∀ f ∈ (d.setStage number stage).flights, ∀ id ∈ f.stage.legs,
      ∃ g ∈ (d.setStage number stage).flights, g.id = id := by
  intro f there id leg
  apply h.there_setStage
  rcases h.mem_setStage.mp there with ⟨member, _⟩ | ⟨f, _, _, rfl⟩
  · exact h.legs f member id leg
  · exact legs id leg

theorem distinct_setStage (h : Coherent d) (number : Nat) (stage : Stage ω) :
    ((d.setStage number stage).flights.map (·.id)).Nodup := by
  change ((restage _ _ _).map _).Nodup
  rw [ids_restage]
  exact h.distinct

theorem setStage (h : Coherent d) {f : Flight ω} (member : f ∈ d.flights) {stage : Stage ω}
    (before : f.stage.result? = none) (after : stage.result? = none)
    (legs : ∀ id ∈ stage.legs, ∃ g ∈ d.flights, g.id = id) :
    Coherent (d.setStage f.id stage) where
  distinct := h.distinct_setStage _ _
  below := h.below_setStage _ _
  oneEach := h.oneEach
  underWay := by
    intro k id
    refine (h.underWay k id).trans ?_
    constructor
    · intro given
      obtain ⟨g, there, rfl, rfl, going⟩ := given
      by_cases same : g.id = f.id
      · cases h.eq_of_id there member same
        exact ⟨_, h.restaged member stage, rfl, rfl, after⟩
      · exact ⟨g, h.mem_setStage.mpr (.inl ⟨there, same⟩), rfl, rfl, going⟩
    · intro given
      obtain ⟨g, there, rfl, rfl, going⟩ := given
      rcases h.mem_setStage.mp there with ⟨was, _⟩ | ⟨old, was, same, rfl⟩
      · exact ⟨g, was, rfl, rfl, going⟩
      · cases h.eq_of_id was member same
        exact ⟨f, member, rfl, rfl, before⟩
  legs := h.legs_setStage legs
  callersDistinct := h.callersDistinct
  callersBelow := h.callersBelow
  awaited c id waits := h.there_setStage _ _ (h.awaited c id waits)

theorem entry_unique (h : Coherent d) {k l : RequestKey} {i j : Nat}
    (one : (k, i) ∈ d.inFlight) (two : (l, j) ∈ d.inFlight) (same : (k == l) = true) :
    k = l ∧ i = j := by
  have pairwise := h.oneEach
  generalize d.inFlight = entries at one two pairwise
  induction entries with
  | nil => cases one
  | cons entry entries ih =>
    rw [List.pairwise_cons] at pairwise
    rcases List.mem_cons.mp one with rfl | first <;> rcases List.mem_cons.mp two with last | second
    · cases last
      exact ⟨rfl, rfl⟩
    · exact absurd same (by simp [pairwise.1 _ second])
    · subst last
      exact absurd (BEq.symm same) (by simp [pairwise.1 _ first])
    · exact ih first second pairwise.2

theorem mem_inFlight_complete (h : Coherent d) {f : Flight ω} (member : f ∈ d.flights)
    (going : f.stage.result? = none) (r : PriceResult) (entry : RequestKey × Nat) :
    entry ∈ (d.complete f r).inFlight ↔ entry ∈ d.inFlight ∧ entry ≠ (f.key, f.id) := by
  have own : (f.key, f.id) ∈ d.inFlight := (h.underWay _ _).mpr ⟨f, member, rfl, rfl, going⟩
  simp only [complete, List.mem_filter, bne, Bool.not_eq_true']
  refine and_congr_right fun there => ?_
  obtain ⟨k, id⟩ := entry
  constructor
  · intro differs same
    cases same
    rw [BEq.rfl] at differs
    cases differs
  · intro differs
    refine Bool.eq_false_iff.mpr fun same => differs ?_
    obtain ⟨rfl, rfl⟩ := h.entry_unique there own same
    rfl

theorem complete (h : Coherent d) {f : Flight ω} (member : f ∈ d.flights)
    (going : f.stage.result? = none) (r : PriceResult) : Coherent (d.complete f r) where
  distinct := h.distinct_setStage _ _
  below := h.below_setStage _ _
  oneEach := h.oneEach.filter _
  underWay := by
    intro k id
    refine (h.mem_inFlight_complete member going r (k, id)).trans ?_
    rw [h.underWay]
    constructor
    · intro given
      obtain ⟨⟨g, there, rfl, rfl, going'⟩, differs⟩ := given
      refine ⟨g, h.mem_setStage.mpr (.inl ⟨there, fun same => differs ?_⟩), rfl, rfl, going'⟩
      cases h.eq_of_id there member same
      rfl
    · intro given
      obtain ⟨g, there, rfl, rfl, going'⟩ := given
      rcases h.mem_setStage.mp there with ⟨was, differs⟩ | ⟨old, _, _, rfl⟩
      · exact ⟨⟨g, was, rfl, rfl, going'⟩, fun same => differs (Prod.mk.inj same).2⟩
      · cases going'
  legs := h.legs_setStage (by simp [Stage.legs])
  callersDistinct := h.callersDistinct
  callersBelow := h.callersBelow
  awaited c id waits := h.there_setStage _ _ (h.awaited c id waits)

theorem admitCaller (h : Coherent d) {c : Caller ω}
    (awaited : ∀ id, c = .awaiting id → ∃ f ∈ d.flights, f.id = id) :
    Coherent (d.admitCaller c) where
  distinct := h.distinct
  below := h.below
  oneEach := h.oneEach
  underWay := h.underWay
  legs := h.legs
  callersDistinct := by
    simp only [Desk.admitCaller, List.map_append, List.map_cons, List.map_nil]
    refine List.nodup_append.mpr ⟨h.callersDistinct, by simp, ?_⟩
    intro a there b last same
    obtain ⟨caller, member, rfl⟩ := List.mem_map.mp there
    cases List.mem_singleton.mp last
    exact absurd same (Nat.ne_of_lt (h.callersBelow caller member))
  callersBelow := by
    intro caller member
    rcases List.mem_append.mp member with member | last
    · exact Nat.lt_succ_of_lt (h.callersBelow caller member)
    · cases List.mem_singleton.mp last
      exact Nat.lt_succ_self _
  awaited := by
    intro caller id waits
    rcases List.mem_append.mp waits with member | last
    · exact h.awaited caller id member
    · cases List.mem_singleton.mp last
      exact awaited id rfl

theorem mem_setCaller {id : Nat} {c : Caller ω} {entry : Nat × Caller ω} :
    entry ∈ (d.setCaller id c).callers ↔
      (entry ∈ d.callers ∧ entry.1 ≠ id) ∨ entry = (id, c) ∧ ∃ old, (id, old) ∈ d.callers := by
  simp only [Desk.setCaller, List.mem_map]
  constructor
  · intro given
    obtain ⟨⟨i, old⟩, member, rfl⟩ := given
    by_cases same : i = id
    · subst same
      exact .inr ⟨by simp, old, member⟩
    · exact .inl ⟨by simpa [same] using member, by simp [same]⟩
  · intro either
    rcases either with ⟨member, differs⟩ | ⟨rfl, old, member⟩
    · exact ⟨entry, member, by simp [differs]⟩
    · exact ⟨(id, old), member, by simp⟩

theorem setCaller (h : Coherent d) (id : Nat) {c : Caller ω} (idle : ∀ f, c ≠ .awaiting f) :
    Coherent (d.setCaller id c) where
  distinct := h.distinct
  below := h.below
  oneEach := h.oneEach
  underWay := h.underWay
  legs := h.legs
  callersDistinct := by
    have numbers : (d.setCaller id c).callers.map (·.1) = d.callers.map (·.1) := by
      simp only [Desk.setCaller, List.map_map]
      refine List.map_congr_left fun entry _ => ?_
      by_cases same : entry.1 = id <;> simp [same]
    rw [numbers]
    exact h.callersDistinct
  callersBelow := by
    intro caller member
    rcases mem_setCaller.mp member with ⟨member, _⟩ | ⟨rfl, old, member⟩
    · exact h.callersBelow caller member
    · exact h.callersBelow (id, old) member
  awaited := by
    intro caller f waits
    rcases mem_setCaller.mp waits with ⟨member, _⟩ | ⟨same, _⟩
    · exact h.awaited caller f member
    · cases same
      exact absurd rfl (idle f)

theorem mem_callers_forget {c : Nat × Caller ω} :
    c ∈ d.forget.callers ↔
      c ∈ d.callers ∧ ((∃ id, c.2 = .awaiting id) ∨ ∃ survey, c.2 = .surveying survey) := by
  obtain ⟨i, c⟩ := c
  simp only [Desk.forget, List.mem_filter]
  cases c <;> simp

theorem mem_flights_forget {f : Flight ω} :
    f ∈ d.forget.flights ↔ f ∈ d.flights ∧
      (f.stage.result? = none ∨ (∃ c, (c, Caller.awaiting f.id) ∈ d.callers) ∨
        ∃ g ∈ d.flights, f.id ∈ g.stage.legs) := by
  simp only [Desk.forget, List.mem_filter, Bool.or_eq_true, Option.isNone_iff_eq_none,
    List.any_eq_true, List.contains_iff_mem]
  refine and_congr_right fun _ => or_congr_right (or_congr_left ?_)
  constructor
  · intro given
    obtain ⟨⟨c, caller⟩, ⟨member, _⟩, same⟩ := given
    cases caller <;> simp at same
    subst same
    exact ⟨c, member⟩
  · intro given
    obtain ⟨c, member⟩ := given
    exact ⟨(c, .awaiting f.id), ⟨member, rfl⟩, by simp⟩

theorem forget (h : Coherent d) : Coherent d.forget where
  distinct := h.distinct.sublist (List.filter_sublist.map _)
  below f member := h.below f (mem_flights_forget.mp member).1
  oneEach := h.oneEach
  underWay := by
    intro k id
    refine (h.underWay k id).trans ?_
    constructor
    · intro given
      obtain ⟨f, member, number, key, going⟩ := given
      exact ⟨f, mem_flights_forget.mpr ⟨member, .inl going⟩, number, key, going⟩
    · intro given
      obtain ⟨f, member, number, key, going⟩ := given
      exact ⟨f, (mem_flights_forget.mp member).1, number, key, going⟩
  legs := by
    intro f member id leg
    have there := (mem_flights_forget.mp member).1
    obtain ⟨g, kept, rfl⟩ := h.legs f there id leg
    exact ⟨g, mem_flights_forget.mpr ⟨kept, .inr (.inr ⟨f, there, leg⟩)⟩, rfl⟩
  callersDistinct := h.callersDistinct.sublist (List.filter_sublist.map _)
  callersBelow c member := h.callersBelow c (mem_callers_forget.mp member).1
  awaited := by
    intro c id waits
    have there := (mem_callers_forget.mp waits).1
    obtain ⟨f, kept, rfl⟩ := h.awaited c id there
    exact ⟨f, mem_flights_forget.mpr ⟨kept, .inr (.inl ⟨c, there⟩)⟩, rfl⟩

end Coherent

theorem mem_of_flight? {id : Nat} {f : Flight ω} (h : d.flight? id = some f) : f ∈ d.flights :=
  List.mem_of_find?_eq_some h

theorem mem_of_caller? {id : Nat} {c : Caller ω} (h : d.caller? id = some c) :
    (id, c) ∈ d.callers := by
  unfold caller? at h
  obtain ⟨front, back, callers, _⟩ := List.lookup_eq_some_iff.mp h
  rw [callers]
  exact List.mem_append_right _ List.mem_cons_self

theorem Ending.going {f : Flight ω} {r : PriceResult} (ending : Ending s d f r) :
    f.stage.result? = none := by
  cases ending <;> rename_i stage _ <;> simp_all [Stage.result?]

theorem Onward.going {f : Flight ω} {stage : Stage ω} {world : ω}
    (onward : Onward s d f stage world) :
    f.stage.result? = none ∧ stage.result? = none ∧ stage.legs = [] := by
  cases onward with
  | found now _ _ => exact ⟨by rw [now]; rfl, rfl, rfl⟩
  | skipped now _ => exact ⟨by rw [now]; rfl, rfl, rfl⟩
  | asked now _ _ => exact ⟨by rw [now]; rfl, rfl, rfl⟩
  | retried now _ _ _ => exact ⟨by rw [now]; rfl, rfl, rfl⟩

theorem Joining.mem {key : RequestKey} {leg : Option Leg} {id : Nat}
    (joins : Joining s d key leg id e) {f : Flight ω} (member : f ∈ d.flights) : f ∈ e.flights := by
  cases joins with
  | joined _ _ => exact member
  | started _ => exact List.mem_cons_of_mem _ member

theorem Coherent.move (h : Coherent d) {a : Action ω} (t : Transition s d a e) : Coherent e := by
  cases t with
  | requested joins =>
    obtain ⟨coherent, f, member, number⟩ := h.joining joins
    refine coherent.admitCaller fun id same => ?_
    cases same
    exact ⟨f, member, number⟩
  | surveyed => exact h.admitCaller (by simp)
  | @flightLooked f survey survey' floor index flight stage looks =>
    exact (h.onFloor floor).setStage (mem_of_flight? flight) (by rw [stage]; rfl) rfl
      (by simp [Stage.legs])
  | callerLooked caller looks => exact (h.onFloor _).setCaller _ (by simp)
  | ended flight ending => exact h.complete (mem_of_flight? flight) ending.going _
  | @wentOn f stage world flight onward =>
    obtain ⟨before, after, legs⟩ := onward.going
    refine (h.onFloor { d.floor with world }).setStage (mem_of_flight? flight) before after ?_
    simp [legs]
  | @split f survey listings first second diagnostics i j d₁ d₂ flight stage loaded found one two =>
    obtain ⟨coherent, g, gMember, gNumber⟩ := h.joining one
    obtain ⟨coherent', g', gMember', gNumber'⟩ := coherent.joining two
    have member := two.mem (one.mem (mem_of_flight? flight))
    refine coherent'.setStage member (by rw [stage]; rfl) rfl ?_
    intro id leg
    simp only [Stage.legs, List.mem_cons, List.not_mem_nil, or_false] at leg
    rcases leg with rfl | rfl
    · exact ⟨g, two.mem gMember, gNumber⟩
    · exact ⟨g', gMember', gNumber'⟩
  | collected caller flight stage => exact h.setCaller _ (by simp)
  | left caller => exact h.setCaller _ (by simp)
  | surveyLeft caller => exact (h.onFloor _).setCaller _ (by simp)
  | ticked later => exact h.onFloor _
  | forgot => exact h.forget

end PriceDesk.Desk
