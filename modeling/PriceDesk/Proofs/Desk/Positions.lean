import PriceDesk.Proofs.Desk.Lookups
import PriceDesk.Proofs.Desk.SharedFlights

namespace PriceDesk.Desk

variable {ω : Type}

def survey? (d : Desk ω) : Owner → Option (Survey ω)
  | .flight id => (d.flight? id).bind (·.stage.survey?)
  | .caller id => (d.caller? id).bind (·.survey?)

def visit? (d : Desk ω) (owner : Owner) (index : Nat) :
    Option (Provider ω × Lookup MarketError Listing) :=
  (d.survey? owner).bind (·[index]?)

variable {s : Setup ω} {d e : Desk ω} {owner : Owner} {index : Nat}
  {p : Provider ω} {l : Lookup MarketError Listing}

inductive Visited (s : Setup ω) (d : Desk ω) (a : Action ω) (e : Desk ω) (owner : Owner)
    (index : Nat) (p : Provider ω) (l : Lookup MarketError Listing) : Prop
  | stood (here : d.visit? owner index = some (p, l))
  | came (nobody : d.visit? owner index = none) (new : Survey.of [p] = [(p, l)])
      (asked : (∃ key, a = .request key ∧
        p ∈ Discovery.sources s.options s.registry key.pair key.network) ∨
          ∃ ps, a = .survey ps ∧ p ∈ ps)
  | moved {old : Lookup MarketError Listing} {call : Call ω Listing}
      (action : a = .lookup owner index) (here : d.visit? owner index = some (p, old))
      (lists : p.listing = some call)
      (moved : old.Moved
        (call.invoke p.id "get_asset_pairs" s.listingTimeout d.floor.clock.now) p.id d.floor.clock
        d.floor.listings d.floor.world l e.floor.listings e.floor.world)

theorem visit?_flight {id : Nat} : d.visit? (.flight id) index = some (p, l) ↔
    ∃ f survey, d.flight? id = some f ∧ f.stage = .surveying survey ∧
      survey[index]? = some (p, l) := by
  constructor
  · intro there
    obtain ⟨survey, surveys, there⟩ := Option.bind_eq_some_iff.mp there
    obtain ⟨f, flight, stage⟩ := Option.bind_eq_some_iff.mp surveys
    exact ⟨f, survey, flight, survey?_eq_some stage, there⟩
  · intro given
    obtain ⟨f, survey, flight, stage, there⟩ := given
    simp [visit?, survey?, flight, stage, Stage.survey?, there]

theorem visit?_caller {id : Nat} : d.visit? (.caller id) index = some (p, l) ↔
    ∃ survey, d.caller? id = some (.surveying survey) ∧ survey[index]? = some (p, l) := by
  constructor
  · intro there
    obtain ⟨survey, surveys, there⟩ := Option.bind_eq_some_iff.mp there
    obtain ⟨c, caller, surveying⟩ := Option.bind_eq_some_iff.mp surveys
    cases c <;> cases surveying
    exact ⟨survey, caller, there⟩
  · intro given
    obtain ⟨survey, caller, there⟩ := given
    simp [visit?, survey?, caller, Caller.survey?, there]

theorem Coherent.flight?_nextFlight (h : Coherent d) : d.flight? d.nextFlight = none := by
  apply List.find?_eq_none.mpr
  intro f member
  simpa using Nat.ne_of_lt (h.below f member)

theorem Coherent.caller?_nextCaller (h : Coherent d) : d.caller? d.nextCaller = none := by
  apply List.lookup_eq_none_iff.mpr
  intro c member
  simpa using Nat.ne_of_gt (h.callersBelow c member)

theorem visited_looks {timeout : Duration} {survey survey' : Survey ω} {floor : Floor ω} {i : Nat}
    (looks : survey.step timeout d.floor i = some (survey', floor))
    (there : survey'[index]? = some (p, l)) :
    survey[index]? = some (p, l) ∨ i = index ∧ ∃ old call, survey[index]? = some (p, old) ∧
      p.listing = some call ∧
      old.Moved (call.invoke p.id "get_asset_pairs" timeout d.floor.clock.now) p.id d.floor.clock
        d.floor.listings d.floor.world l floor.listings floor.world := by
  obtain ⟨q, old, new, was, ⟨call, lists, moved⟩, rfl, clock⟩ := Survey.looks_of_step looks
  by_cases here : i = index
  · subst here
    obtain ⟨below, _⟩ := List.getElem?_eq_some_iff.mp was
    rw [List.getElem?_set_self below] at there
    cases there
    exact .inr ⟨rfl, old, call, was, lists, moved⟩
  · rw [List.getElem?_set_ne here] at there
    exact .inl there

theorem visited_flight (h : Coherent d) {a : Action ω} (t : Transition s d a e) {id : Nat}
    (there : e.visit? (.flight id) index = some (p, l)) :
    Visited s d a e (.flight id) index p l := by
  obtain ⟨g, survey', found, stage, listed⟩ := visit?_flight.mp there
  have member := mem_of_flight? found
  cases id_of_flight? found
  have kept : g ∈ d.flights → Visited s d a e (.flight g.id) index p l := fun was =>
    .stood (visit?_flight.mpr ⟨g, survey', h.flight?_of_mem was, stage, listed⟩)
  cases t with
  | @requested key id e joins =>
    rcases mem_joining_cases joins member with was | rfl
    · exact kept was
    · cases stage
      refine .came ?_ (Survey.of_at listed) (.inl ⟨key, rfl, Survey.mem_of_at listed⟩)
      simp [visit?, survey?, h.flight?_nextFlight]
  | @flightLooked f survey survey' floor i flight now looks =>
    rcases mem_setStage_cases (h.onFloor floor) (mem_of_flight? flight) member with was | rfl
    · exact kept was
    · cases stage
      rcases visited_looks looks listed with was | ⟨rfl, old, call, was, lists, moved⟩
      · exact .stood (visit?_flight.mpr ⟨f, survey, flight, now, was⟩)
      · exact .moved rfl (visit?_flight.mpr ⟨f, survey, flight, now, was⟩) lists moved
  | ended flight ending =>
    rcases mem_setStage_cases h (mem_of_flight? flight) member with was | rfl
    · exact kept was
    · cases stage
  | @wentOn f stage' world flight onward =>
    rcases mem_setStage_cases (h.onFloor { d.floor with world }) (mem_of_flight? flight) member
      with was | rfl
    · exact kept was
    · cases onward <;> cases stage
  | @split f survey listings first second diagnostics i j d₁ d₂ flight now loaded found one two =>
    have coherent := ((h.joining one).1.joining two).1
    rcases mem_setStage_cases coherent (two.mem (one.mem (mem_of_flight? flight))) member
      with was | rfl
    · rcases mem_joining_cases two was with was | rfl
      · rcases mem_joining_cases one was with was | rfl
        · exact kept was
        · cases stage
      · cases stage
    · cases stage
  | forgot => exact kept (Coherent.mem_flights_forget.mp member).1
  | surveyed | callerLooked _ _ | collected _ _ _ | left _ | surveyLeft _ | ticked _ =>
    exact kept member

theorem visited_caller (h : Coherent d) {a : Action ω} (t : Transition s d a e) {id : Nat}
    (there : e.visit? (.caller id) index = some (p, l)) :
    Visited s d a e (.caller id) index p l := by
  obtain ⟨survey', found, listed⟩ := visit?_caller.mp there
  have member := mem_of_caller? found
  have kept : (id, .surveying survey') ∈ d.callers → Visited s d a e (.caller id) index p l :=
    fun was => .stood (visit?_caller.mpr ⟨survey', h.caller?_of_mem was, listed⟩)
  cases t with
  | requested joins =>
    rcases List.mem_append.mp member with was | last
    · exact kept (joins.callers ▸ was)
    · cases List.mem_singleton.mp last
  | @surveyed ps =>
    rcases List.mem_append.mp member with was | last
    · exact kept was
    · cases List.mem_singleton.mp last
      refine .came ?_ (Survey.of_at listed) (.inr ⟨ps, rfl, Survey.mem_of_at listed⟩)
      simp [visit?, survey?, h.caller?_nextCaller]
  | @callerLooked id' survey survey' floor i caller looks =>
    rcases Coherent.mem_setCaller.mp member with ⟨was, _⟩ | ⟨same, _⟩
    · exact kept was
    · cases same
      rcases visited_looks looks listed with was | ⟨rfl, old, call, was, lists, moved⟩
      · exact .stood (visit?_caller.mpr ⟨survey, caller, was⟩)
      · exact .moved rfl (visit?_caller.mpr ⟨survey, caller, was⟩) lists moved
  | collected caller flight stage =>
    rcases Coherent.mem_setCaller.mp member with ⟨was, _⟩ | ⟨same, _⟩
    · exact kept was
    · cases same
  | left caller =>
    rcases Coherent.mem_setCaller.mp member with ⟨was, _⟩ | ⟨same, _⟩
    · exact kept was
    · cases same
  | surveyLeft caller =>
    rcases Coherent.mem_setCaller.mp member with ⟨was, _⟩ | ⟨same, _⟩
    · exact kept was
    · cases same
  | split flight now loaded found one two =>
    exact kept (one.callers ▸ two.callers ▸ member)
  | forgot => exact kept (Coherent.mem_callers_forget.mp member).1
  | flightLooked _ _ _ | ended _ _ | wentOn _ _ | ticked _ => exact kept member

theorem visited (h : Coherent d) {a : Action ω} (t : Transition s d a e)
    (there : e.visit? owner index = some (p, l)) : Visited s d a e owner index p l := by
  cases owner with
  | flight id => exact visited_flight h t there
  | caller id => exact visited_caller h t there

/-- What a move does to the table: it keeps the lifetime of values, and what it stores is brought
by a lookup and as old as the move. -/
structure Keeps (d e : Desk ω) : Prop where
  ttl : e.floor.listings.ttl = d.floor.listings.ttl
  entry : ∀ k, (e.floor.listings.slot k).entry = (d.floor.listings.slot k).entry ∨
    ∃ owner index, ∃ p : Provider ω, ∃ l listing, d.visit? owner index = some (p, l) ∧ p.id = k ∧
      l.stores? d.floor.clock = some listing ∧
      (e.floor.listings.slot k).entry = some ⟨listing, d.floor.clock.wall⟩

theorem Keeps.of_eq (same : e.floor.listings = d.floor.listings) : Keeps d e :=
  ⟨congrArg _ same, fun k => .inl (by rw [same])⟩

theorem Keeps.of_looks {timeout : Duration} {survey survey' : Survey ω} {floor : Floor ω} {i : Nat}
    (surveys : d.survey? owner = some survey)
    (looks : survey.step timeout d.floor i = some (survey', floor))
    (after : e.floor.listings = floor.listings) : Keeps d e := by
  obtain ⟨p, l, l', there, ⟨call, lists, moved⟩, _, _⟩ := Survey.looks_of_step looks
  refine ⟨by rw [after, moved.ttl], fun k => ?_⟩
  have entry := moved.entry k
  rw [after]
  cases stores : l.stores? d.floor.clock with
  | none =>
    rw [stores] at entry
    exact .inl entry
  | some listing =>
    simp only [stores] at entry
    split at entry
    · rename_i own
      have here : d.visit? owner i = some (p, l) := by
        rw [visit?, surveys]
        exact there
      exact .inr ⟨owner, i, p, l, listing, here, beq_iff_eq.mp own, stores, entry⟩
    · exact .inl entry

theorem keeps {a : Action ω} (t : Transition s d a e) : Keeps d e := by
  cases t with
  | requested joins => exact .of_eq (congrArg _ joins.floor)
  | @flightLooked f survey survey' floor index flight stage looks =>
    have surveys : d.survey? (.flight f.id) = some survey := by
      simp [survey?, flight, stage, Stage.survey?]
    exact .of_looks surveys looks rfl
  | @callerLooked id survey survey' floor index caller looks =>
    have surveys : d.survey? (.caller id) = some survey := by
      simp [survey?, caller, Caller.survey?]
    exact .of_looks surveys looks rfl
  | split flight stage loaded found one two =>
    exact .of_eq (congrArg _ (two.floor.trans one.floor))
  | @surveyLeft c survey caller =>
    exact ⟨Survey.drop_ttl survey _, fun k => .inl (Survey.drop_entry survey _ k)⟩
  | surveyed | ended _ _ | wentOn _ _ | collected _ _ _ | left _ | ticked _ | forgot =>
    exact .of_eq rfl

theorem Coherent.mem_visits (h : Coherent d) {v : String × Lookup MarketError Listing} :
    v ∈ d.visits ↔ ∃ owner index, ∃ p : Provider ω, ∃ l,
      d.visit? owner index = some (p, l) ∧ v = (p.id, l) := by
  constructor
  · intro member
    rcases List.mem_append.mp member with ofFlight | ofCaller
    · obtain ⟨f, there, own⟩ := List.mem_flatMap.mp ofFlight
      cases stage : f.stage with
      | surveying survey =>
        rw [stage] at own
        obtain ⟨index, p, l, at_, same⟩ := Survey.mem_visits.mp own
        exact ⟨.flight f.id, index, p, l,
          visit?_flight.mpr ⟨f, survey, h.flight?_of_mem there, stage, at_⟩, same⟩
      | choosing _ _ _ | asking _ _ _ _ | combining _ _ | done _ =>
        rw [stage] at own
        cases own
    · obtain ⟨⟨id, c⟩, there, own⟩ := List.mem_flatMap.mp ofCaller
      cases c with
      | surveying survey =>
        obtain ⟨index, p, l, at_, same⟩ := Survey.mem_visits.mp own
        exact ⟨.caller id, index, p, l,
          visit?_caller.mpr ⟨survey, h.caller?_of_mem there, at_⟩, same⟩
      | awaiting _ | answered _ | gone => cases own
  · intro given
    obtain ⟨owner, index, p, l, at_, rfl⟩ := given
    cases owner with
    | flight id =>
      obtain ⟨f, survey, flight, stage, at_⟩ := visit?_flight.mp at_
      refine List.mem_append_left _ (List.mem_flatMap.mpr ⟨f, mem_of_flight? flight, ?_⟩)
      rw [stage]
      exact Survey.mem_visits.mpr ⟨index, p, l, at_, rfl⟩
    | caller id =>
      obtain ⟨survey, caller, at_⟩ := visit?_caller.mp at_
      refine List.mem_append_right _ (List.mem_flatMap.mpr ⟨_, mem_of_caller? caller, ?_⟩)
      exact Survey.mem_visits.mpr ⟨index, p, l, at_, rfl⟩

theorem lists_move (h : Coherent d) {a : Action ω} (t : Transition s d a e)
    (lists : ∀ owner index p l, d.visit? owner index = some (p, l) → l.result? = none →
      p.listing.isSome = true)
    (there : e.visit? owner index = some (p, l)) (going : l.result? = none) :
    p.listing.isSome = true := by
  cases visited h t there with
  | stood here => exact lists owner index p l here going
  | came nobody new asked =>
    cases has : p.listing with
    | some call => rfl
    | none =>
      simp only [Survey.of, List.map_cons, has, List.map_nil] at new
      cases new
      cases going
  | moved action here has moved => exact Option.isSome_of_eq_some has

theorem Run.lists {moves : List (Move ω)} (run : Run s moves d)
    (there : d.visit? owner index = some (p, l)) (going : l.result? = none) :
    p.listing.isSome = true := by
  induction run generalizing owner index p l with
  | start floor => cases owner <;> cases there
  | move run whole step ih =>
    exact lists_move run.coherent (transition_of_step step) (fun _ _ _ _ => ih) there going

end PriceDesk.Desk
