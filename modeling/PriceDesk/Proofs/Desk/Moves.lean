import PriceDesk.Desk.Step

namespace PriceDesk.Desk

variable {ω : Type} {s : Setup ω} {d e : Desk ω}

def started (s : Setup ω) (d : Desk ω) (key : RequestKey) (leg : Option Leg) : Desk ω :=
  { d with
    flights := { id := d.nextFlight, key, stage := opening s key leg } :: d.flights
    inFlight := (key, d.nextFlight) :: d.inFlight
    nextFlight := d.nextFlight + 1 }

inductive Joining (s : Setup ω) (d : Desk ω) (key : RequestKey) (leg : Option Leg) :
    Nat → Desk ω → Prop
  | joined {k : RequestKey} {id : Nat} (entry : (k, id) ∈ d.inFlight) (same : (k == key) = true) :
      Joining s d key leg id d
  | started (new : ∀ entry ∈ d.inFlight, (entry.1 == key) = false) :
      Joining s d key leg d.nextFlight (d.started s key leg)

theorem mem_of_lookup {key : RequestKey} {id : Nat} {entries : List (RequestKey × Nat)}
    (found : entries.lookup key = some id) :
    ∃ k, (k, id) ∈ entries ∧ (k == key) = true := by
  induction entries with
  | nil => cases found
  | cons entry entries ih =>
    obtain ⟨k, i⟩ := entry
    rw [List.lookup_cons] at found
    split at found
    · rename_i same
      cases found
      exact ⟨k, List.mem_cons_self, BEq.symm same⟩
    · obtain ⟨k', member, same⟩ := ih found
      exact ⟨k', List.mem_cons_of_mem _ member, same⟩

theorem joining_of_joinOrStart {key : RequestKey} {leg : Option Leg} {id : Nat}
    (joins : joinOrStart s d key leg = (id, e)) : Joining s d key leg id e := by
  unfold joinOrStart at joins
  split at joins
  · rename_i found
    cases joins
    obtain ⟨k, entry, same⟩ := mem_of_lookup found
    exact .joined entry same
  · rename_i missing
    cases joins
    apply Joining.started
    intro entry member
    have differs := List.lookup_eq_none_iff.mp missing entry member
    rw [BEq.comm]
    exact Bool.not_eq_true' _ ▸ differs

theorem Joining.entry {key : RequestKey} {leg : Option Leg} {id : Nat}
    (joins : Joining s d key leg id e) : ∃ k, (k == key) = true ∧ (k, id) ∈ e.inFlight := by
  cases joins with
  | @joined k id entry same => exact ⟨k, same, entry⟩
  | started _ => exact ⟨key, BEq.rfl, List.mem_cons_self⟩

theorem onNetwork_of_askOrder {leg : Leg} {p : Provider ω}
    (member : p ∈ opening.askOrder s leg) : p ∈ s.registry.onNetwork leg.network .pricing := by
  rcases List.mem_append.mp member with found | other
  · exact (List.mem_filter.mp found).1
  · exact (List.mem_filter.mp other).1

inductive Ending (s : Setup ω) (d : Desk ω) (f : Flight ω) : PriceResult → Prop
  | unfound {survey : Survey ω} {listings : List (Except MarketError Listing)}
      {diagnostics : Diagnostics} (stage : f.stage = .surveying survey)
      (loaded : survey.results? = some listings)
      (found : Discovery.conclude s.options s.registry f.key.pair f.key.network listings =
        (none, diagnostics)) :
      Ending s d f (.error (notFound s f.key.pair))
  | exhausted {leg : Leg} {failure : MarketError} (stage : f.stage = .choosing leg [] failure) :
      Ending s d f (.error failure)
  | priced {leg : Leg} {p : Provider ω} {call : Pending MarketError Quotes}
      {queue : List (Provider ω)} {quotes : Quotes} {price : LatestPrice}
      (stage : f.stage = .asking leg p call queue)
      (answer : call.poll d.floor.clock.now = some (.ok quotes))
      (priced : priceOf leg p.id quotes = .ok price) :
      Ending s d f (.ok price)
  | refused {leg : Leg} {p : Provider ω} {call : Pending MarketError Quotes}
      {queue : List (Provider ω)} {outcome : Except MarketError Quotes} {failure : MarketError}
      (stage : f.stage = .asking leg p call queue)
      (answer : call.poll d.floor.clock.now = some outcome)
      (failed : outcome.bind (priceOf leg p.id) = .error failure)
      (final : failure.isFinal = true) :
      Ending s d f (.error failure)
  | combined {i j : Nat} {g h : Flight ω} {first second : PriceResult}
      (stage : f.stage = .combining i j)
      (one : d.flight? i = some g) (oneDone : g.stage = .done first)
      (two : d.flight? j = some h) (twoDone : h.stage = .done second) :
      Ending s d f (do combine f.key.pair (← first) (← second))

inductive Onward (s : Setup ω) (d : Desk ω) (f : Flight ω) : Stage ω → ω → Prop
  | found {survey : Survey ω} {listings : List (Except MarketError Listing)} {leg : Leg}
      {diagnostics : Diagnostics} (stage : f.stage = .surveying survey)
      (loaded : survey.results? = some listings)
      (found : Discovery.conclude s.options s.registry f.key.pair f.key.network listings =
        (some (.plain leg), diagnostics)) :
      Onward s d f (opening s f.key (some leg)) d.floor.world
  | skipped {leg : Leg} {p : Provider ω} {queue : List (Provider ω)} {failure : MarketError}
      (stage : f.stage = .choosing leg (p :: queue) failure) (mute : p.pricing = none) :
      Onward s d f
        (.choosing leg queue (.noProviderForNetwork p.network.name Capability.pricing.name))
        d.floor.world
  | asked {leg : Leg} {p : Provider ω} {queue : List (Provider ω)} {failure : MarketError}
      {pricing : Pricing ω} {call : Pending MarketError Quotes} {world : ω}
      (stage : f.stage = .choosing leg (p :: queue) failure) (quotes : p.pricing = some pricing)
      (called : (pricing.call (singleOrAll pricing.features leg.providerPair)).invoke p.id
        "get_pricing" s.quoteTimeout d.floor.clock.now d.floor.world = (call, world)) :
      Onward s d f (.asking leg p call queue) world
  | retried {leg : Leg} {p : Provider ω} {call : Pending MarketError Quotes}
      {queue : List (Provider ω)} {outcome : Except MarketError Quotes} {failure : MarketError}
      (stage : f.stage = .asking leg p call queue)
      (answer : call.poll d.floor.clock.now = some outcome)
      (failed : outcome.bind (priceOf leg p.id) = .error failure)
      (mendable : failure.isFinal = false) :
      Onward s d f (.choosing leg queue failure) d.floor.world

def firstKey (key : RequestKey) (first : Leg) : RequestKey :=
  { pair := first.pair, role := .firstLeg, network := key.network }

def secondKey (second : Leg) : RequestKey :=
  { pair := second.pair, role := .secondLeg, network := some second.network }

def onFloor (d : Desk ω) (floor : Floor ω) : Desk ω := { d with floor }

inductive Transition (s : Setup ω) (d : Desk ω) : Action ω → Desk ω → Prop
  | requested {key : RequestKey} {id : Nat} {e : Desk ω} (joins : Joining s d key none id e) :
      Transition s d (.request key) (e.admitCaller (.awaiting id))
  | surveyed {ps : List (Provider ω)} :
      Transition s d (.survey ps) (d.admitCaller (.surveying (Survey.of ps)))
  | flightLooked {f : Flight ω} {survey survey' : Survey ω} {floor : Floor ω} {index : Nat}
      (flight : d.flight? f.id = some f) (stage : f.stage = .surveying survey)
      (looks : survey.step s.listingTimeout d.floor index = some (survey', floor)) :
      Transition s d (.lookup (.flight f.id) index)
        ((d.onFloor floor).setStage f.id (.surveying survey'))
  | callerLooked {id : Nat} {survey survey' : Survey ω} {floor : Floor ω} {index : Nat}
      (caller : d.caller? id = some (.surveying survey))
      (looks : survey.step s.listingTimeout d.floor index = some (survey', floor)) :
      Transition s d (.lookup (.caller id) index)
        ((d.onFloor floor).setCaller id (.surveying survey'))
  | ended {f : Flight ω} {r : PriceResult} (flight : d.flight? f.id = some f)
      (ending : Ending s d f r) : Transition s d (.advance f.id) (d.complete f r)
  | wentOn {f : Flight ω} {stage : Stage ω} {world : ω} (flight : d.flight? f.id = some f)
      (onward : Onward s d f stage world) :
      Transition s d (.advance f.id)
        ((d.onFloor { d.floor with world }).setStage f.id stage)
  | split {f : Flight ω} {survey : Survey ω} {listings : List (Except MarketError Listing)}
      {first second : Leg} {diagnostics : Diagnostics} {i j : Nat} {e e' : Desk ω}
      (flight : d.flight? f.id = some f) (stage : f.stage = .surveying survey)
      (loaded : survey.results? = some listings)
      (found : Discovery.conclude s.options s.registry f.key.pair f.key.network listings =
        (some (.converted first second), diagnostics))
      (one : Joining s d (firstKey f.key first) (some first) i e)
      (two : Joining s e (secondKey second) (some second) j e') :
      Transition s d (.advance f.id) (e'.setStage f.id (.combining i j))
  | collected {c id : Nat} {f : Flight ω} {r : PriceResult}
      (caller : d.caller? c = some (.awaiting id)) (flight : d.flight? id = some f)
      (stage : f.stage = .done r) :
      Transition s d (.collect c) (d.setCaller c (.answered r))
  | left {c id : Nat} (caller : d.caller? c = some (.awaiting id)) :
      Transition s d (.drop c) (d.setCaller c .gone)
  | surveyLeft {c : Nat} {survey : Survey ω} (caller : d.caller? c = some (.surveying survey)) :
      Transition s d (.drop c)
        ((d.onFloor { d.floor with listings := survey.drop d.floor.listings }).setCaller c .gone)
  | ticked {t : Instant} (later : d.floor.clock.now < t) :
      Transition s d (.tick t) (d.onFloor { d.floor with clock := d.floor.clock.advance t })
  | forgot : Transition s d .forget d.forget

theorem id_of_flight? {id : Nat} {f : Flight ω} (h : d.flight? id = some f) : f.id = id := by
  simpa using List.find?_some h

theorem survey?_eq_some {stage : Stage ω} {survey : Survey ω} (h : stage.survey? = some survey) :
    stage = .surveying survey := by
  cases stage <;> cases h
  rfl

theorem result?_eq_some {stage : Stage ω} {r : PriceResult} (h : stage.result? = some r) :
    stage = .done r := by
  cases stage <;> cases h
  rfl

theorem transition_of_dispatch {f : Flight ω} {survey : Survey ω}
    {listings : List (Except MarketError Listing)} (flight : d.flight? f.id = some f)
    (stage : f.stage = .surveying survey) (loaded : survey.results? = some listings) :
    Transition s d (.advance f.id)
      (dispatch s d f
        (Discovery.conclude s.options s.registry f.key.pair f.key.network listings).1) := by
  cases concluded :
      Discovery.conclude s.options s.registry f.key.pair f.key.network listings with
  | mk found diagnostics =>
    cases found with
    | none => exact .ended flight (.unfound stage loaded concluded)
    | some m =>
      cases m with
      | plain leg => exact .wentOn flight (.found stage loaded concluded)
      | converted first second =>
        exact .split flight stage loaded concluded
          (joining_of_joinOrStart rfl) (joining_of_joinOrStart rfl)

theorem transition_of_advance {f : Flight ω} (flight : d.flight? f.id = some f)
    (step : advance s d f = some e) : Transition s d (.advance f.id) e := by
  unfold advance at step
  split at step
  · rename_i survey stage
    obtain ⟨listings, loaded, step⟩ := Option.bind_eq_some_iff.mp step
    cases step
    exact transition_of_dispatch flight stage loaded
  · rename_i stage
    cases step
    exact .ended flight (.exhausted stage)
  · rename_i stage
    split at step
    · rename_i mute
      cases step
      exact .wentOn flight (.skipped stage mute)
    · rename_i quotes
      cases step
      exact .wentOn flight (.asked stage quotes rfl)
  · rename_i stage
    obtain ⟨outcome, answer, step⟩ := Option.bind_eq_some_iff.mp step
    split at step
    · rename_i price priced
      cases step
      cases outcome with
      | ok quotes => exact .ended flight (.priced stage answer priced)
      | error failure => cases priced
    · rename_i failure failed
      split at step
      · rename_i final
        cases step
        exact .ended flight (.refused stage answer failed final)
      · rename_i mendable
        cases step
        exact .wentOn flight (.retried stage answer failed (by simpa using mendable))
  · rename_i stage
    obtain ⟨g, one, step⟩ := Option.bind_eq_some_iff.mp step
    obtain ⟨first, oneDone, step⟩ := Option.bind_eq_some_iff.mp step
    obtain ⟨h, two, step⟩ := Option.bind_eq_some_iff.mp step
    obtain ⟨second, twoDone, step⟩ := Option.bind_eq_some_iff.mp step
    cases step
    exact .ended flight
      (.combined stage one (result?_eq_some oneDone) two (result?_eq_some twoDone))
  · cases step

theorem transition_of_lookup {owner : Owner} {index : Nat}
    (step : lookup s d owner index = some e) : Transition s d (.lookup owner index) e := by
  unfold lookup at step
  split at step
  · obtain ⟨f, flight, step⟩ := Option.bind_eq_some_iff.mp step
    obtain ⟨survey, stage, step⟩ := Option.bind_eq_some_iff.mp step
    obtain ⟨⟨survey', floor⟩, looks, step⟩ := Option.bind_eq_some_iff.mp step
    cases step
    cases id_of_flight? flight
    exact .flightLooked flight (survey?_eq_some stage) looks
  · split at step
    · rename_i caller
      obtain ⟨⟨survey', floor⟩, looks, step⟩ := Option.bind_eq_some_iff.mp step
      cases step
      exact .callerLooked caller looks
    · cases step

theorem transition_of_step {a : Action ω} (step : step s d a = some e) : Transition s d a e := by
  cases a with
  | request key =>
    cases step
    exact .requested (joining_of_joinOrStart rfl)
  | survey ps =>
    cases step
    exact .surveyed
  | lookup owner index =>
    cases owner with
    | flight id =>
      by_cases awaited : d.isAwaited id = true
      · exact transition_of_lookup (by simpa [Desk.step, awaited] using step)
      · simp [Desk.step, awaited] at step
    | caller id => exact transition_of_lookup step
  | advance id =>
    by_cases awaited : d.isAwaited id = true
    · simp only [Desk.step, awaited, if_true] at step
      obtain ⟨f, flight, advanced⟩ := Option.bind_eq_some_iff.mp step
      cases id_of_flight? flight
      exact transition_of_advance flight advanced
    · simp [Desk.step, awaited] at step
  | collect c =>
    simp only [Desk.step] at step
    split at step
    · rename_i caller
      obtain ⟨f, flight, step⟩ := Option.bind_eq_some_iff.mp step
      obtain ⟨r, stage, step⟩ := Option.bind_eq_some_iff.mp step
      cases step
      exact .collected caller flight (result?_eq_some stage)
    · cases step
  | drop c =>
    simp only [Desk.step, depart] at step
    split at step
    · rename_i caller
      cases step
      exact .surveyLeft caller
    · rename_i caller
      cases step
      exact .left caller
    · cases step
  | tick t =>
    simp only [Desk.step] at step
    split at step
    · rename_i later
      cases step
      exact .ticked later
    · cases step
  | forget =>
    cases step
    exact .forgot

/-- How a flight goes on whose search has ended, by what it has found. -/
inductive Dispatched (s : Setup ω) (d : Desk ω) (f : Flight ω) : Option Match → Desk ω → Prop
  | unfound : Dispatched s d f none (d.complete f (.error (notFound s f.key.pair)))
  | plain {leg : Leg} :
      Dispatched s d f (some (.plain leg)) (d.setStage f.id (opening s f.key (some leg)))
  | converted {first second : Leg} {i j : Nat} {e e' : Desk ω}
      (one : Joining s d (firstKey f.key first) (some first) i e)
      (two : Joining s e (secondKey second) (some second) j e') :
      Dispatched s d f (some (.converted first second)) (e'.setStage f.id (.combining i j))

theorem dispatched_of_search {f : Flight ω} {survey : Survey ω}
    {listings : List (Except MarketError Listing)} {found : Option Match}
    {diagnostics : Diagnostics} {id : Nat} (t : Transition s d (.advance id) e)
    (flight : d.flight? id = some f) (stage : f.stage = .surveying survey)
    (loaded : survey.results? = some listings)
    (concluded : Discovery.conclude s.options s.registry f.key.pair f.key.network listings =
      (found, diagnostics)) : Dispatched s d f found e := by
  cases t with
  | ended flight' ending =>
    cases flight.symm.trans flight'
    cases ending with
    | unfound stage' loaded' concluded' =>
      cases stage.symm.trans stage'
      cases loaded.symm.trans loaded'
      cases concluded.symm.trans concluded'
      exact .unfound
    | exhausted stage' | priced stage' _ _ | refused stage' _ _ _ | combined stage' _ _ _ _ =>
      cases stage.symm.trans stage'
  | wentOn flight' onward =>
    cases flight.symm.trans flight'
    cases onward with
    | found stage' loaded' concluded' =>
      cases stage.symm.trans stage'
      cases loaded.symm.trans loaded'
      cases concluded.symm.trans concluded'
      exact .plain
    | skipped stage' _ | asked stage' _ _ | retried stage' _ _ _ =>
      cases stage.symm.trans stage'
  | split flight' stage' loaded' concluded' one two =>
    cases flight.symm.trans flight'
    cases stage.symm.trans stage'
    cases loaded.symm.trans loaded'
    cases concluded.symm.trans concluded'
    exact .converted one two

end PriceDesk.Desk
