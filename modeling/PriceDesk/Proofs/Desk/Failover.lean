import PriceDesk.Proofs.Desk.Delivery

namespace PriceDesk

variable {ω : Type}

def Leg.question (leg : Leg) (p : Provider ω) : RequestedPairs :=
  p.pricing.elim .all fun pricing => Desk.singleOrAll pricing.features leg.providerPair

theorem Leg.question_eq {leg : Leg} {p : Provider ω} {pricing : Pricing ω}
    (has : p.pricing = some pricing) :
    leg.question p = Desk.singleOrAll pricing.features leg.providerPair := by
  rw [question, has]
  rfl

inductive Talk (ω : Type) where
  | asks (p : Provider ω) (requested : RequestedPairs) (call : Pending MarketError Quotes)
  | hears (p : Provider ω) (call : Pending MarketError Quotes)
      (outcome : Except MarketError Quotes)

def Stage.talk (s : Setup ω) (d : Desk ω) : Stage ω → List (Talk ω)
  | .choosing leg (p :: _) _ =>
    match p.pricing with
    | some pricing =>
      [.asks p (leg.question p) ((pricing.call (leg.question p)).invoke p.id "get_pricing"
        s.quoteTimeout d.floor.clock.now d.floor.world).1]
    | none => []
  | .asking _ p call _ => ((call.poll d.floor.clock.now).map (.hears p call)).toList
  | .choosing _ [] _ | .surveying _ | .combining _ _ | .done _ => []

def Move.talk (s : Setup ω) (id : Nat) (m : Move ω) : List (Talk ω) :=
  match m.action with
  | .advance i =>
    if i = id then ((m.before.flight? id).map (·.stage.talk s m.before)).getD [] else []
  | _ => []

def talks (s : Setup ω) (moves : List (Move ω)) (id : Nat) : List (Talk ω) :=
  moves.flatMap (Move.talk s id)

structure Heard (ω : Type) where
  provider : Provider ω
  call : Pending MarketError Quotes
  outcome : Except MarketError Quotes

namespace Heard

def exchange (leg : Leg) (h : Heard ω) : List (Talk ω) :=
  [.asks h.provider (leg.question h.provider) h.call, .hears h.provider h.call h.outcome]

def worth (leg : Leg) (h : Heard ω) : PriceResult :=
  h.outcome.bind (Desk.priceOf leg h.provider.id)

def Mendable (leg : Leg) (h : Heard ω) : Prop :=
  ∃ failure, h.worth leg = .error failure ∧ failure.retryClass ≠ .never

end Heard

def lastWorth (leg : Leg) (heard : List (Heard ω)) : PriceResult :=
  match heard.getLast? with
  | some h => h.worth leg
  | none => .error (.noProviderForNetwork leg.network.name "pricing")

def Move.TakesUp (s : Setup ω) (id : Nat) (leg : Leg) (m : Move ω) : Prop :=
  (∀ f ∈ m.before.flights, f.id = id → f.stage.survey?.isSome = true) ∧
    ∃ g ∈ m.after.flights, g.id = id ∧ g.stage = Desk.opening s g.key (some leg)

namespace Desk

variable {s : Setup ω} {d e : Desk ω} {moves : List (Move ω)} {leg : Leg} {id : Nat}
  {talk : List (Talk ω)}

/-- How a leg comes to its result: those who may be asked were asked in order, all but the last of
them failed mendably, and either the last one did not or nobody is left. -/
structure Settles (s : Setup ω) (leg : Leg) (heard : List (Heard ω)) (r : PriceResult) : Prop where
  order : heard.map (·.provider) <+: opening.askOrder s leg
  failed : ∀ h ∈ heard.dropLast, h.Mendable leg
  decided : (∃ h, heard.getLast? = some h ∧ ¬ h.Mendable leg) ∨
    heard.map (·.provider) = opening.askOrder s leg
  result : r = lastWorth leg heard

theorem filter_id_eq {ps : List (Provider ω)} (distinct : ps.Pairwise fun p q => p.id ≠ q.id)
    (id : String) : ps.filter (·.id == id) = (ps.find? (·.id == id)).toList := by
  induction ps with
  | nil => rfl
  | cons p ps ih =>
    obtain ⟨differs, rest⟩ := List.pairwise_cons.mp distinct
    rw [List.filter_cons, List.find?_cons]
    cases found : p.id == id with
    | true =>
      have others : ps.filter (·.id == id) = [] := by
        refine List.filter_eq_nil_iff.mpr fun q member same => differs q member ?_
        rw [beq_iff_eq.mp found, beq_iff_eq.mp same]
      rw [if_pos rfl, others]
      rfl
    | false =>
      rw [if_neg Bool.false_ne_true]
      exact ih rest

theorem onNetwork_distinct (s : Setup ω) (n : Network) (c : Capability) :
    (s.registry.onNetwork n c).Pairwise fun p q => p.id ≠ q.id :=
  (s.registry.distinct.sublist Registry.having_sublist).filter _

theorem askOrder_eq (s : Setup ω) (leg : Leg) :
    let ps := s.registry.onNetwork leg.network .pricing
    opening.askOrder s leg =
      (ps.find? (·.id == leg.provider)).toList ++ ps.filter (·.id != leg.provider) :=
  congrArg (· ++ _) (filter_id_eq (onNetwork_distinct s _ _) _)

theorem askOrder_distinct (s : Setup ω) (leg : Leg) :
    (opening.askOrder s leg).Pairwise fun p q => p.id ≠ q.id := by
  have distinct := onNetwork_distinct s leg.network .pricing
  refine List.pairwise_append.mpr ⟨distinct.filter _, distinct.filter _, ?_⟩
  intro p found q other same
  have own := beq_iff_eq.mp (List.mem_filter.mp found).2
  exact bne_iff_ne.mp (List.mem_filter.mp other).2 (same.symm.trans own)

theorem quotes_of_askOrder {p : Provider ω} (member : p ∈ opening.askOrder s leg) :
    p.pricing.isSome = true :=
  (Discovery.mem_having.mp (List.mem_filter.mp (onNetwork_of_askOrder member)).1).2

end Desk

def Stage.Tells (s : Setup ω) (leg : Leg) (talk : List (Talk ω)) : Stage ω → Prop
  | .choosing l queue failure => l = leg ∧ ∃ heard : List (Heard ω),
      talk = heard.flatMap (Heard.exchange leg) ∧
      heard.map (·.provider) ++ queue = Desk.opening.askOrder s leg ∧
      (∀ h ∈ heard, h.Mendable leg) ∧ lastWorth leg heard = .error failure
  | .asking l p call queue => l = leg ∧ ∃ heard : List (Heard ω),
      talk = heard.flatMap (Heard.exchange leg) ++ [.asks p (leg.question p) call] ∧
      heard.map (·.provider) ++ p :: queue = Desk.opening.askOrder s leg ∧
      ∀ h ∈ heard, h.Mendable leg
  | .done r => ∃ heard : List (Heard ω), talk = heard.flatMap (Heard.exchange leg) ∧
      Desk.Settles s leg heard r
  | .surveying _ | .combining _ _ => False

namespace Desk

variable {s : Setup ω} {d e : Desk ω} {moves : List (Move ω)} {leg : Leg} {id : Nat}
  {talk : List (Talk ω)}

theorem tells_opening (key : RequestKey) : (opening s key (some leg)).Tells s leg [] :=
  ⟨rfl, [], rfl, rfl, fun _ member => absurd member List.not_mem_nil, rfl⟩

theorem searched_of_tells {stage : Stage ω} (tells : stage.Tells s leg talk) :
    stage.survey? = none := by
  cases stage with
  | surveying _ => cases tells
  | choosing _ _ _ | asking _ _ _ _ | combining _ _ | done _ => rfl

theorem Settles.concat {heard : List (Heard ω)} {h : Heard ω} {queue : List (Provider ω)}
    (order : heard.map (·.provider) ++ h.provider :: queue = opening.askOrder s leg)
    (failed : ∀ x ∈ heard, x.Mendable leg) (decisive : ¬ h.Mendable leg) :
    Settles s leg (heard ++ [h]) (h.worth leg) where
  order := by
    rw [List.map_append, ← order]
    exact ⟨queue, List.append_assoc _ _ _⟩
  failed := by
    rw [List.dropLast_concat]
    exact failed
  decided := .inl ⟨h, List.getLast?_concat, decisive⟩
  result := by rw [lastWorth, List.getLast?_concat]

theorem exchanges_concat (heard : List (Heard ω)) (h : Heard ω) :
    (heard ++ [h]).flatMap (Heard.exchange leg) =
      heard.flatMap (Heard.exchange leg) ++ [.asks h.provider (leg.question h.provider) h.call] ++
        [.hears h.provider h.call h.outcome] := by
  rw [List.flatMap_append, List.append_assoc]
  rfl

theorem tells_of_ending {f : Flight ω} {r : PriceResult} (tells : f.stage.Tells s leg talk)
    (ending : Ending s d f r) : (Stage.done r).Tells s leg (talk ++ f.stage.talk s d) := by
  cases ending with
  | unfound stage _ _ | combined stage _ _ _ _ =>
    rw [stage] at tells
    cases tells
  | exhausted stage =>
    rw [stage] at tells ⊢
    obtain ⟨rfl, heard, said, order, failed, last⟩ := tells
    rw [List.append_nil] at order
    refine ⟨heard, by rw [said]; exact List.append_nil _, ?_⟩
    exact ⟨order ▸ List.prefix_refl _, fun h member => failed h (List.dropLast_subset _ member),
      .inr order, last.symm⟩
  | @priced leg p call queue quotes price stage answer priced =>
    rw [stage] at tells ⊢
    obtain ⟨rfl, heard, said, order, failed⟩ := tells
    let h : Heard ω := ⟨p, call, .ok quotes⟩
    have worth : h.worth leg = .ok price := priced
    refine ⟨heard ++ [h], ?_, worth ▸ Settles.concat order failed ?_⟩
    · rw [exchanges_concat, said, Stage.talk, answer]
      rfl
    · rintro ⟨failure, error, _⟩
      rw [worth] at error
      cases error
  | @refused leg p call queue outcome failure stage answer refused final =>
    rw [stage] at tells ⊢
    obtain ⟨rfl, heard, said, order, failed⟩ := tells
    let h : Heard ω := ⟨p, call, outcome⟩
    have worth : h.worth leg = .error failure := refused
    refine ⟨heard ++ [h], ?_, worth ▸ Settles.concat order failed ?_⟩
    · rw [exchanges_concat, said, Stage.talk, answer]
      rfl
    · rintro ⟨failure', error, mendable⟩
      rw [worth] at error
      cases error
      exact mendable (beq_iff_eq.mp final)

theorem tells_of_onward {f : Flight ω} {stage : Stage ω} {world : ω}
    (tells : f.stage.Tells s leg talk) (onward : Onward s d f stage world) :
    stage.Tells s leg (talk ++ f.stage.talk s d) := by
  cases onward with
  | found now _ _ =>
    rw [now] at tells
    cases tells
  | @skipped leg p queue failure now mute =>
    rw [now] at tells
    obtain ⟨rfl, heard, _, order, _⟩ := tells
    -- Whoever may be asked quotes prices.
    have quotes : p.pricing.isSome = true := quotes_of_askOrder
      (order ▸ List.mem_append_right _ List.mem_cons_self)
    rw [mute] at quotes
    cases quotes
  | @asked leg p queue failure pricing call world now has called =>
    rw [now] at tells ⊢
    obtain ⟨rfl, heard, said, order, failed, _⟩ := tells
    refine ⟨rfl, heard, ?_, order, failed⟩
    simp only [said, Stage.talk, has, Leg.question_eq has, called]
  | @retried leg p call queue outcome failure now answer error mendable =>
    rw [now] at tells ⊢
    obtain ⟨rfl, heard, said, order, failed⟩ := tells
    let h : Heard ω := ⟨p, call, outcome⟩
    have worth : h.worth leg = .error failure := error
    refine ⟨rfl, heard ++ [h], ?_, ?_, ?_, ?_⟩
    · rw [exchanges_concat, said, Stage.talk, answer]
      rfl
    · rw [List.map_append, ← order]
      exact List.append_assoc _ _ _
    · intro x member
      rcases List.mem_append.mp member with earlier | last
      · exact failed x earlier
      · cases List.mem_singleton.mp last
        exact ⟨failure, worth, beq_eq_false_iff_ne.mp mendable⟩
    · rw [lastWorth, List.getLast?_concat]
      exact worth

theorem talk_advance {f : Flight ω} (flight : d.flight? f.id = some f) :
    Move.talk s f.id ⟨d, .advance f.id, e⟩ = f.stage.talk s d := by
  simp only [Move.talk, if_true, flight, Option.map_some, Option.getD_some]

theorem talk_other {i : Nat} (other : i ≠ id) : Move.talk s id ⟨d, .advance i, e⟩ = [] := by
  simp only [Move.talk, other, if_false]

theorem talks_concat (moves : List (Move ω)) (m : Move ω) :
    talks s (moves ++ [m]) id = talks s moves id ++ m.talk s id := by
  rw [talks, List.flatMap_append, List.flatMap_singleton]
  rfl

theorem tells_move (h : Coherent d) {a : Action ω} (t : Transition s d a e) {f g : Flight ω}
    (was : f ∈ d.flights) (there : g ∈ e.flights) (number : f.id = g.id)
    (tells : f.stage.Tells s leg talk) :
    g.stage.Tells s leg (talk ++ Move.talk s f.id ⟨d, a, e⟩) := by
  -- Only a move of the flight itself changes its stage, and only that one says anything for it.
  have kept : g ∈ d.flights → Move.talk s f.id ⟨d, a, e⟩ = [] →
      g.stage.Tells s leg (talk ++ Move.talk s f.id ⟨d, a, e⟩) := by
    intro member silent
    cases h.eq_of_id was member number
    rw [silent, List.append_nil]
    exact tells
  cases t with
  | requested joins =>
    rcases mem_joining_cases joins there with member | rfl
    · exact kept member rfl
    · exact absurd number (Nat.ne_of_lt (h.below f was))
  | @flightLooked f' survey survey' floor index flight stage looks =>
    have member := mem_of_flight? flight
    rcases mem_setStage_cases (h.onFloor floor) member there with earlier | rfl
    · exact kept earlier rfl
    · cases h.eq_of_id was member number
      rw [stage] at tells
      cases tells
  | @ended f' r flight ending =>
    have member := mem_of_flight? flight
    by_cases own : f'.id = f.id
    · cases h.eq_of_id member was own
      have restaged : g.stage = .done r := by
        rcases h.mem_setStage.mp there with ⟨_, other⟩ | ⟨_, _, _, rfl⟩
        · exact absurd number.symm other
        · rfl
      rw [restaged, talk_advance flight]
      exact tells_of_ending tells ending
    · rcases mem_setStage_cases h member there with earlier | rfl
      · exact kept earlier (talk_other own)
      · exact absurd number.symm own
  | @wentOn f' stage world flight onward =>
    have member := mem_of_flight? flight
    by_cases own : f'.id = f.id
    · cases h.eq_of_id member was own
      have restaged : g.stage = stage := by
        rcases (h.onFloor { d.floor with world }).mem_setStage.mp there with
          ⟨_, other⟩ | ⟨_, _, _, rfl⟩
        · exact absurd number.symm other
        · rfl
      rw [restaged, talk_advance flight]
      exact tells_of_onward tells onward
    · rcases mem_setStage_cases (h.onFloor { d.floor with world }) member there with earlier | rfl
      · exact kept earlier (talk_other own)
      · exact absurd number.symm own
  | @split f' survey listings first second _ i j d₁ d₂ flight stage loaded found one two =>
    have coherent := ((h.joining one).1.joining two).1
    have member := mem_of_flight? flight
    have own : f'.id ≠ f.id := by
      intro same
      cases h.eq_of_id member was same
      rw [stage] at tells
      cases tells
    rcases mem_setStage_cases coherent (two.mem (one.mem member)) there with earlier | rfl
    · have below := h.below f was
      rcases mem_joining_cases two earlier with earlier | rfl
      · rcases mem_joining_cases one earlier with earlier | rfl
        · exact kept earlier (talk_other own)
        · exact absurd number (Nat.ne_of_lt below)
      · have grown := nextFlight_joining one
        exact absurd number (Nat.ne_of_lt (Nat.lt_of_lt_of_le below grown))
    · exact absurd number.symm own
  | forgot => exact kept (Coherent.mem_flights_forget.mp there).1 rfl
  | surveyed | callerLooked _ _ | collected _ _ _ | left _ | surveyLeft _ | ticked _ =>
    exact kept there rfl

theorem talk_of_quiet {a : Action ω}
    (quiet : ∀ f ∈ d.flights, f.id = id → f.stage.talk s d = []) :
    Move.talk s id ⟨d, a, e⟩ = [] := by
  simp only [Move.talk]
  split
  · split
    · cases found : d.flight? id with
      | none => rfl
      | some f => exact quiet f (mem_of_flight? found) (id_of_flight? found)
    · rfl
  · rfl

theorem follows_of_advance (h : Coherent d) (t : Transition s d (.advance id) e) :
    ∃ f ∈ d.flights, ∃ g ∈ e.flights, f.id = id ∧ g.id = id ∧
      Stage.Follows f.stage g.stage := by
  cases t with
  | @ended f r flight ending =>
    have member := mem_of_flight? flight
    exact ⟨f, member, _, h.restaged member (.done r), rfl, rfl, .ends ending.going⟩
  | @wentOn f stage world flight onward =>
    have member := mem_of_flight? flight
    have there := (h.onFloor { d.floor with world }).restaged member stage
    exact ⟨f, member, _, there, rfl, rfl, onward.follows⟩
  | @split f survey listings first second diagnostics i j d₁ d₂ flight stage loaded found one two =>
    have coherent := ((h.joining one).1.joining two).1
    have member := mem_of_flight? flight
    have there := coherent.restaged (two.mem (one.mem member)) (.combining i j)
    refine ⟨f, member, _, there, rfl, rfl, ?_⟩
    rw [stage]
    exact .splits

theorem silent_or_there (h : Coherent d) {a : Action ω} (t : Transition s d a e) :
    Move.talk s id ⟨d, a, e⟩ = [] ∨ ∃ g ∈ e.flights, g.id = id := by
  cases a with
  | advance i =>
    by_cases own : i = id
    · obtain ⟨_, _, g, there, _, number, _⟩ := follows_of_advance h t
      exact .inr ⟨g, there, number.trans own⟩
    · exact .inl (talk_other own)
  | request _ | survey _ | lookup _ _ | collect _ | drop _ | tick _ | forget => exact .inl rfl

def Unopened (d : Desk ω) (id : Nat) : Prop :=
  d.nextFlight ≤ id ∨ ∃ f ∈ d.flights, f.id = id ∧ f.stage.survey?.isSome = true

theorem Unopened.quiet (unopened : Unopened d id) (h : Coherent d) :
    ∀ f ∈ d.flights, f.id = id → f.stage.talk s d = [] := by
  intro f member number
  rcases unopened with new | ⟨g, there, own, searching⟩
  · exact absurd number (Nat.ne_of_lt (Nat.lt_of_lt_of_le (h.below f member) new))
  · cases h.eq_of_id member there (number.trans own.symm)
    obtain ⟨survey, survey?⟩ := Option.isSome_iff_exists.mp searching
    rw [survey?_eq_some survey?]
    rfl

theorem Unopened.before (h : Coherent d) {a : Action ω} (t : Transition s d a e)
    (unopened : Unopened e id) : Unopened d id := by
  rcases unopened with new | ⟨g, there, rfl, searching⟩
  · exact .inl (Nat.le_trans (nextFlight_le t) new)
  · cases origin h t there with
    | kept was => exact .inr ⟨g, was, rfl, searching⟩
    | moved was number key follows =>
      refine .inr ⟨_, was, number, ?_⟩
      obtain ⟨survey, survey?⟩ := Option.isSome_iff_exists.mp searching
      rw [survey?_eq_some survey?] at follows
      generalize Flight.stage _ = old at follows
      cases follows
      rfl
    | asked new _ _ | leg new _ _ => exact .inl new

theorem unopened_of_takesUp (h : Coherent d) {a : Action ω} (t : Transition s d a e)
    (takes : Move.TakesUp s id leg ⟨d, a, e⟩) : Unopened d id := by
  obtain ⟨searching, g, there, rfl, opens⟩ := takes
  cases origin h t there with
  | kept was => exact .inr ⟨g, was, rfl, searching g was rfl⟩
  | moved was number _ _ => exact .inr ⟨_, was, number, searching _ was number⟩
  | asked new _ _ | leg new _ _ => exact .inl new

theorem Run.silent (run : Run s moves d) (unopened : Unopened d id) : talks s moves id = [] := by
  induction run with
  | start floor => rfl
  | move run whole step ih =>
    have h := run.coherent
    have before := unopened.before h (transition_of_step step)
    rw [talks_concat, ih before, talk_of_quiet (before.quiet h)]
    rfl

theorem Run.tells_of_takesUp (run : Run s moves d) {m : Move ω} (member : m ∈ moves)
    (takes : m.TakesUp s id leg) :
    Settled d id fun g => g.stage.Tells s leg (talks s moves id) := by
  induction run with
  | start floor => cases member
  | @move moves d e a run whole step ih =>
    have h := run.coherent
    have t := transition_of_step step
    rw [talks_concat]
    rcases List.mem_append.mp member with earlier | last
    · refine (ih earlier).follow h t fun f was own g there number tells => ?_
      cases own
      exact tells_move h t was there number tells
    · cases List.mem_singleton.mp last
      have unopened := unopened_of_takesUp h t takes
      obtain ⟨_, g, there, number, opens⟩ := takes
      rw [← number]
      refine settled_of_mem (h.move t) there ?_
      rw [number, run.silent unopened, talk_of_quiet (unopened.quiet h), opens]
      exact tells_opening g.key

/-- The exchanges with those who may be asked, in order, and a question that may still wait for its
answer. Nobody is asked before all the others have failed mendably. -/
def Asked (s : Setup ω) (leg : Leg) (talk : List (Talk ω)) : Prop :=
  ∃ (heard : List (Heard ω)) (pending : Option (Provider ω × Pending MarketError Quotes)),
    talk = heard.flatMap (Heard.exchange leg) ++
      pending.toList.map (fun (p, call) => .asks p (leg.question p) call) ∧
    heard.map (·.provider) ++ pending.toList.map (·.1) <+: opening.askOrder s leg ∧
    (∀ h ∈ heard.dropLast, h.Mendable leg) ∧
    (pending.isSome = true → ∀ h ∈ heard, h.Mendable leg)

theorem asked_of_tells {stage : Stage ω} (tells : stage.Tells s leg talk) : Asked s leg talk := by
  have earlier : ∀ {heard : List (Heard ω)}, (∀ h ∈ heard, h.Mendable leg) →
      ∀ h ∈ heard.dropLast, h.Mendable leg :=
    fun failed h member => failed h (List.dropLast_subset _ member)
  cases stage with
  | surveying survey => cases tells
  | combining i j => cases tells
  | choosing l queue failure =>
    obtain ⟨_, heard, said, order, failed, _⟩ := tells
    refine ⟨heard, none, by rw [said]; exact (List.append_nil _).symm, ?_, earlier failed, nofun⟩
    exact ⟨queue, by rw [← order, Option.toList_none, List.map_nil, List.append_nil]⟩
  | asking l p call queue =>
    obtain ⟨_, heard, said, order, failed⟩ := tells
    refine ⟨heard, some (p, call), said, ?_, earlier failed, fun _ => failed⟩
    exact order ▸ (List.prefix_append_right_inj _).mpr ⟨queue, rfl⟩
  | done r =>
    obtain ⟨heard, said, settles⟩ := tells
    refine ⟨heard, none, by rw [said]; exact (List.append_nil _).symm, ?_, settles.failed, nofun⟩
    simpa using settles.order

theorem Run.asked (run : Run s moves d) {m : Move ω} (member : m ∈ moves)
    (takes : m.TakesUp s id leg) : Asked s leg (talks s moves id) := by
  induction run with
  | start floor => cases member
  | @move moves d e a run whole step ih =>
    have tells := (run.move whole step).tells_of_takesUp member takes
    have there : Move.talk s id ⟨d, a, e⟩ = [] ∨ ∃ g ∈ e.flights, g.id = id :=
      silent_or_there run.coherent (transition_of_step step)
    rcases there with silent | ⟨g, there, number⟩
    · rcases List.mem_append.mp member with earlier | last
      · rw [talks_concat, silent, List.append_nil]
        exact ih earlier
      · cases List.mem_singleton.mp last
        obtain ⟨_, g, there, number, _⟩ := takes
        exact asked_of_tells (tells.2 g there number)
    · exact asked_of_tells (tells.2 g there number)

theorem Run.settles (run : Run s moves d) {m : Move ω} (member : m ∈ moves)
    (takes : m.TakesUp s id leg) {n : Move ω} (among : n ∈ moves) {f : Flight ω} {r : PriceResult}
    (number : f.id = id) (completes : n.Completes f r) :
    (Stage.done r).Tells s leg (talks s moves id) := by
  induction run with
  | start floor => cases among
  | @move moves d e a run whole step ih =>
    have next := run.move whole step
    rcases List.mem_append.mp among with earlier | last
    · have done := (run.completed earlier completes).2
      have quiet : ∀ f ∈ d.flights, f.id = id → f.stage.talk s d = [] := by
        intro f' was number'
        rw [done f' was (number'.trans number.symm)]
        rfl
      rcases List.mem_append.mp member with earlier' | last'
      · rw [talks_concat, talk_of_quiet quiet, List.append_nil]
        exact ih earlier' earlier
      -- A flight that has ended does not take up a leg.
      · cases List.mem_singleton.mp last'
        obtain ⟨_, g, there, number', opens⟩ := takes
        have ended : g.stage = .done r :=
          (next.completed among completes).2 g there (number'.trans number.symm)
        rw [opens] at ended
        cases ended
    · cases List.mem_singleton.mp last
      obtain ⟨_, _, g, there, same, stage⟩ := completes
      exact stage ▸ (next.tells_of_takesUp member takes).2 g there (same.trans number)

/-- A move of a flight makes one call, which is the question that it says, or leaves the world as
it is. -/
theorem calls_of_advance (t : Transition s d (.advance id) e) :
    (∃ p r call pricing, Move.talk s id ⟨d, .advance id, e⟩ = [.asks p r call] ∧
        p.pricing = some pricing ∧
        (pricing.call r).invoke p.id "get_pricing" s.quoteTimeout d.floor.clock.now d.floor.world =
          (call, e.floor.world)) ∨
      (∀ p r call, .asks p r call ∉ Move.talk s id ⟨d, .advance id, e⟩) ∧
        e.floor.world = d.floor.world := by
  cases t with
  | @ended f r flight ending =>
    refine .inr ⟨fun p r call spoken => ?_, rfl⟩
    rw [talk_advance flight] at spoken
    cases ending with
    | unfound stage _ _ | exhausted stage | combined stage _ _ _ _ =>
      rw [stage] at spoken
      cases spoken
    | priced stage answer _ | refused stage answer _ _ =>
      rw [stage, Stage.talk, answer] at spoken
      cases List.mem_singleton.mp spoken
  | @wentOn f stage world flight onward =>
    rw [talk_advance flight]
    cases onward with
    | found now _ _ =>
      rw [now]
      exact .inr ⟨fun _ _ _ spoken => (nomatch spoken), rfl⟩
    | skipped now mute =>
      rw [now]
      simp only [Stage.talk, mute]
      exact .inr ⟨fun _ _ _ spoken => (nomatch spoken), rfl⟩
    | @asked leg p queue failure pricing call world now has called =>
      rw [now]
      refine .inl ⟨p, leg.question p, call, pricing, ?_, has, Leg.question_eq has ▸ called⟩
      simp only [Stage.talk, has, Leg.question_eq has, called]
    | retried now answer _ _ =>
      rw [now]
      refine .inr ⟨fun _ _ _ spoken => ?_, rfl⟩
      rw [Stage.talk, answer] at spoken
      cases List.mem_singleton.mp spoken
  | split flight stage _ _ one two =>
    rw [talk_advance flight, stage]
    refine .inr ⟨fun _ _ _ spoken => (nomatch spoken), ?_⟩
    exact congrArg Floor.world (two.floor.trans one.floor)

theorem Run.leg_moves (run : Run s moves d) {f : Flight ω} (member : f ∈ d.flights)
    (awaited : d.isAwaited f.id = true) (going : f.stage.result? = none)
    (tells : f.stage.Tells s leg talk) :
    ∃ moves' e e', Serves s moves d moves' e ∧ f ∈ e.flights ∧ e.isAwaited f.id = true ∧
      step s e (.advance f.id) = some e' := by
  have moves_at : ∀ {d : Desk ω}, Coherent d → f ∈ d.flights → d.isAwaited f.id = true →
      (advance s d f).isSome = true → ∃ e', step s d (.advance f.id) = some e' :=
    fun h member awaited can => Option.isSome_iff_exists.mp (h.flight_runs member awaited can)
  cases stage : f.stage with
  | surveying _ | combining _ _ =>
    rw [stage] at tells
    cases tells
  | done r =>
    rw [stage] at going
    cases going
  | choosing l queue failure =>
    have can : (advance s d f).isSome = true := by
      cases queue with
      | nil => simp [advance, stage]
      | cons p queue => cases quotes : p.pricing <;> simp [advance, stage, quotes]
    obtain ⟨e', advances⟩ := moves_at run.coherent member awaited can
    exact ⟨moves, d, e', .refl, member, awaited, advances⟩
  | asking l p call queue =>
    cases answer : call.poll d.floor.clock.now with
    | some outcome =>
      obtain ⟨e', advances⟩ := moves_at run.coherent member awaited (isSome_advance stage answer)
      exact ⟨moves, d, e', .refl, member, awaited, advances⟩
    | none =>
      -- The answer is still to come, but it comes or its time ends.
      obtain ⟨t, later, arrived⟩ := Pending.arrives (run.quotes_cutoff member stage) answer
      obtain ⟨outcome, arrived⟩ := Option.isSome_iff_exists.mp arrived
      have tick := step_tick (s := s) later
      have run' := run.move (a := .tick t) trivial tick
      have awaited' : (d.onFloor { d.floor with clock := d.floor.clock.advance t }).isAwaited
          f.id = true := by
        rcases run.awaited_move tick member going awaited with still | ⟨_, _, drops, _⟩
        · exact still
        · cases drops
      obtain ⟨e', advances⟩ := moves_at run'.coherent (d := d.onFloor _) member awaited'
        (isSome_advance stage arrived)
      exact ⟨_, _, e', Serves.refl.step (a := .tick t) trivial tick, member, awaited', advances⟩

theorem Run.leg_ends (run : Run s moves d) {m : Move ω} (among : m ∈ moves)
    (takes : m.TakesUp s id leg) {f : Flight ω} (member : f ∈ d.flights) (number : f.id = id)
    (awaited : d.isAwaited id = true) :
    ∃ moves' e, Serves s moves d moves' e ∧
      ∃ g ∈ e.flights, g.id = id ∧ ∃ r, g.stage = .done r := by
  -- Every move of the flight leaves fewer stages ahead of it.
  induction left : f.stage.ahead using Nat.strongRecOn generalizing moves d f with
  | ind n ih =>
    cases number
    cases going : f.stage.result? with
    | some r => exact ⟨moves, d, .refl, f, member, rfl, r, result?_eq_some going⟩
    | none =>
      have tells := (run.tells_of_takesUp among takes).2 f member rfl
      obtain ⟨moves', e, e', serves, member', awaited', advances⟩ :=
        run.leg_moves member awaited going tells
      have run' := serves.run run
      have next := serves.step (a := .advance f.id) trivial advances
      obtain ⟨f', there', g, there, same, number, follows⟩ :=
        follows_of_advance run'.coherent (transition_of_step advances)
      cases run'.coherent.eq_of_id there' member' same
      cases ended : g.stage.result? with
      | some r => exact ⟨_, e', next, g, there, number, r, result?_eq_some ended⟩
      | none =>
        have awaited'' : e'.isAwaited f.id = true := by
          rcases run'.awaited_move advances member' going awaited' with still | ⟨_, _, drops, _⟩
          · exact still
          · cases drops
        have less : g.stage.ahead < n := left ▸ (follows.ahead_lt (searched_of_tells tells)).2
        obtain ⟨moves'', e'', serves', ends⟩ := ih _ less (next.run run) (next.subset among) there
          number awaited'' rfl
        exact ⟨moves'', e'', next.trans serves', ends⟩

theorem mendable_of_missing {quotes : Quotes} (missing : quotes.get? leg.providerPair = none)
    (p : Provider ω) (call : Pending MarketError Quotes) :
    Heard.Mendable leg ⟨p, call, .ok quotes⟩ := by
  have worth : Heard.worth leg ⟨p, call, .ok quotes⟩ = .error (.providerResponse p.id "get_pricing"
      s!"{leg.providerPair} missing from response") := by
    simp only [Heard.worth, Except.bind, priceOf, missing]
  exact ⟨_, worth, RetryClass.noConfusion⟩

theorem mendable_of_zero {quotes : Quotes} {q : Quote}
    (there : quotes.get? leg.providerPair = some q) (reversed : leg.isReversed = true)
    (zero : q.price.isZero = true) (p : Provider ω) (call : Pending MarketError Quotes) :
    Heard.Mendable leg ⟨p, call, .ok quotes⟩ := by
  have inverse : q.price.reciprocal? = none := by
    simp [Decimal.reciprocal?, zero]
  have worth : Heard.worth leg ⟨p, call, .ok quotes⟩ =
      .error (.invalidPrice q.pair.render "cannot reverse a zero price") := by
    simp only [Heard.worth, Except.bind, priceOf, there, reversed, if_true, Quote.reversed, inverse]
    rfl
  exact ⟨_, worth, RetryClass.noConfusion⟩

/-- How a flight has gone about the price of a leg, in a run in which it has taken the leg up. -/
structure FailsOver (s : Setup ω) (moves : List (Move ω)) (d : Desk ω) (id : Nat) (leg : Leg) :
    Prop where
  /-- Of those who quote prices on the network the provider that was found comes first, if it is
  one of them. The others follow as they rank, and nobody comes twice. -/
  order : let ps := s.registry.onNetwork leg.network .pricing
    opening.askOrder s leg =
      (ps.find? (·.id == leg.provider)).toList ++ ps.filter (·.id != leg.provider)
  distinct : (opening.askOrder s leg).Pairwise fun p q => p.id ≠ q.id
  asked : Asked s leg (talks s moves id)
  /-- Every question is one call to its provider, and without one the flight leaves the world
  alone. -/
  calls : ∀ n ∈ moves, n.action = .advance id →
    (∃ p r call pricing, n.talk s id = [.asks p r call] ∧ p.pricing = some pricing ∧
        (pricing.call r).invoke p.id "get_pricing" s.quoteTimeout n.before.floor.clock.now
          n.before.floor.world = (call, n.after.floor.world)) ∨
      (∀ p r call, .asks p r call ∉ n.talk s id) ∧ n.after.floor.world = n.before.floor.world
  /-- The result is that of the first who gives a price or a failure that nobody can mend, and else
  that of the last. Nobody is asked after that. -/
  ended : ∀ n ∈ moves, ∀ f r, f.id = id → n.Completes f r → ∃ heard : List (Heard ω),
    talks s moves id = heard.flatMap (Heard.exchange leg) ∧ Settles s leg heard r
  goesOn : (∃ f ∈ d.flights, f.id = id) → d.isAwaited id = true → ∃ moves' e,
    Serves s moves d moves' e ∧ ∃ n ∈ moves', ∃ f r, f.id = id ∧ n.Completes f r
  /-- An answer without the pair, or with a price of zero that has to be reversed, is a failure
  that another provider may mend. -/
  missing : ∀ (p : Provider ω) call (quotes : Quotes), quotes.get? leg.providerPair = none →
    Heard.Mendable leg ⟨p, call, .ok quotes⟩
  zero : ∀ (p : Provider ω) call (quotes : Quotes) q, quotes.get? leg.providerPair = some q →
    leg.isReversed = true → q.price.isZero = true → Heard.Mendable leg ⟨p, call, .ok quotes⟩

/-- Whatever else moves, a flight that has taken up a leg asks its providers in order, until one of
them decides or nobody is left. -/
theorem providers_are_asked_in_turn (run : Run s moves d) {m : Move ω} (member : m ∈ moves)
    (takes : m.TakesUp s id leg) : FailsOver s moves d id leg where
  order := askOrder_eq s leg
  distinct := askOrder_distinct s leg
  asked := run.asked member takes
  calls := by
    rintro ⟨d, a, e⟩ among action
    cases action
    exact calls_of_advance (run.move_of_mem among).2.2
  ended := fun n among f r number completes => run.settles member takes among number completes
  goesOn := by
    rintro ⟨f, there, number⟩ awaited
    obtain ⟨moves', e, serves, g, there', number', r, done⟩ :=
      run.leg_ends member takes there number awaited
    obtain ⟨n, among, f', same, _, completes⟩ := (serves.run run).completed_of_done there' done
    exact ⟨moves', e, serves, n, among, f', r, same.trans number', completes⟩
  missing p call quotes none := mendable_of_missing none p call
  zero p call quotes q there reversed zero := mendable_of_zero there reversed zero p call

def shyProviders : List (Provider Unit) :=
  [{ promptProvider [.of "BTC" "USD"] with
      id := "shy"
      priority := 1
      pricing := some { features := {}, call := fun _ _ _ world => (.now (.ok {}), world) } },
   { promptProvider [.of "BTC" "USD"] with listing := none }]

def shySetup : Setup Unit where
  registry :=
    ⟨shyProviders, .cons (by simp [Provider.NoWorse, promptProvider]) (List.pairwise_singleton _ _),
      .cons (by simp [promptProvider]) (List.pairwise_singleton _ _)⟩
  listingTimeout := 1
  quoteTimeout := 1

def shyLeg : Leg where
  provider := "shy"
  network := ⟨"Prompt"⟩
  pair := .of "BTC" "USD"
  isReversed := false

theorem shy_provider_is_passed_over : ∃ moves d m n f lp, Run shySetup moves d ∧ m ∈ moves ∧
    m.TakesUp shySetup 0 shyLeg ∧ n ∈ moves ∧ f.id = 0 ∧ n.Completes f (.ok lp) ∧
    (talks shySetup moves 0).length = 4 ∧ FailsOver shySetup moves d 0 shyLeg := by
  have run := Run.start (s := shySetup) promptFloor
    |>.move (a := .request { pair := .of "BTC" "USD" }) rfl rfl
    |>.move (a := .lookup (.flight 0) 0) trivial rfl
    |>.move (a := .lookup (.flight 0) 0) trivial rfl
    |>.move (a := .lookup (.flight 0) 0) trivial rfl
    |>.move (a := .advance 0) trivial rfl
    |>.move (a := .advance 0) trivial rfl
    |>.move (a := .advance 0) trivial rfl
    |>.move (a := .advance 0) trivial rfl
    |>.move (a := .advance 0) trivial rfl
  let lp : LatestPrice :=
    { pair := .of "BTC" "USD", price := .one, network := ⟨"Prompt"⟩, isReversed := false }
  refine ⟨_, _, _, _, _, lp, run, .tail _ (.tail _ (.tail _ (.tail _ (.head _)))), ?takes,
    List.mem_append_right _ List.mem_cons_self, ?_, ⟨.head _, by rfl, _, .head _, by rfl, by rfl⟩,
    by rfl,
    providers_are_asked_in_turn run (.tail _ (.tail _ (.tail _ (.tail _ (.head _))))) ?takes⟩
  case takes =>
    refine ⟨fun f member _ => ?_, _, .head _, by rfl, by rfl⟩
    cases List.mem_singleton.mp member
    rfl
  rfl

end Desk

end PriceDesk
