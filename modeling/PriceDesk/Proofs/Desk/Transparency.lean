import PriceDesk.Proofs.Desk.Attendance
import PriceDesk.Proofs.Desk.Lending
import PriceDesk.Proofs.Desk.LegPrices

namespace PriceDesk

variable {ω : Type}

inductive Aims (answers : Answers ω) (s : Setup ω) (moves : List (Move ω)) (d : Desk ω)
    (f : Flight ω) : Prop
  | searching {survey : Survey ω} (stage : f.stage = .surveying survey)
      (whole : f.key.role = .whole) (asks : survey.map (·.1) =
        Discovery.sources s.options s.registry f.key.pair f.key.network)
  | plain {leg : Leg} (whole : f.key.role = .whole)
      (found : answers.found s f.key = some (.plain leg)) (prices : f.stage.Prices answers s leg)
  | combining {i j : Nat} {first second other : Leg} (stage : f.stage = .combining i j)
      (whole : f.key.role = .whole) (found : answers.found s f.key = some (.converted first second))
      (lends : Lends answers s moves f.key second other)
      (one : Desk.Settled d i fun g => g.stage.Prices answers s first)
      (two : Desk.Settled d j fun g => g.stage.Prices answers s other)
  | settled {r : PriceResult} (stage : f.stage = .done r) (whole : f.key.role = .whole)
      (comes : Comes answers s moves f.key r)
  | first {leg : Leg} (part : f.key.role = .firstLeg) (pair : leg.pair = f.key.pair)
      (finds : Discovery.findLeg leg.pair
        (Discovery.lineup s.options s.registry answers.listing f.key.network) = some leg)
      (prices : f.stage.Prices answers s leg)
  | second {leg : Leg} (same : (Desk.secondKey leg == f.key) = true)
      (prices : f.stage.Prices answers s leg)
      (founded : f.stage.result? = none → ∃ g ∈ d.flights, ∃ i first,
        g.stage = .combining i f.id ∧ answers.found s g.key = some (.converted first leg))

section

variable {answers : Answers ω} {s : Setup ω} {moves : List (Move ω)} {d : Desk ω} {f : Flight ω}

theorem Aims.first_leg (aims : Aims answers s moves d f)
    (part : f.key.role = .firstLeg) : ∃ leg, leg.pair = f.key.pair ∧ Discovery.findLeg leg.pair
      (Discovery.lineup s.options s.registry answers.listing f.key.network) = some leg ∧
        f.stage.Prices answers s leg := by
  cases aims with
  | @first leg _ pair finds prices => exact ⟨leg, pair, finds, prices⟩
  | searching _ whole _ | plain whole _ _ | combining _ whole _ _ _ _ | settled _ whole _ =>
    rw [whole] at part
    cases part
  | second same _ _ =>
    rw [← (RequestKey.beq_iff.mp same).2.1] at part
    cases part

theorem Aims.second_leg (aims : Aims answers s moves d f)
    (part : f.key.role = .secondLeg) : ∃ leg, (Desk.secondKey leg == f.key) = true ∧
      f.stage.Prices answers s leg ∧ (f.stage.result? = none → ∃ g ∈ d.flights, ∃ i first,
        g.stage = .combining i f.id ∧ answers.found s g.key = some (.converted first leg)) := by
  cases aims with
  | @second leg same prices founded => exact ⟨leg, same, prices, founded⟩
  | searching _ whole _ | plain whole _ _ | combining _ whole _ _ _ _ | settled _ whole _
  | first whole _ _ _ =>
    rw [whole] at part
    cases part

theorem Aims.of_surveying (aims : Aims answers s moves d f)
    {survey : Survey ω} (stage : f.stage = .surveying survey) : f.key.role = .whole ∧
      survey.map (·.1) = Discovery.sources s.options s.registry f.key.pair f.key.network := by
  cases aims with
  | searching stage' whole asks =>
    rw [stage] at stage'
    cases stage'
    exact ⟨whole, asks⟩
  | combining stage' _ _ _ _ _ | settled stage' _ _ =>
    rw [stage] at stage'
    cases stage'
  | plain _ _ prices | first _ _ _ prices | second _ prices _ =>
    rw [stage] at prices
    cases prices

theorem Aims.of_combining (aims : Aims answers s moves d f)
    {i j : Nat} (stage : f.stage = .combining i j) : f.key.role = .whole := by
  cases aims with
  | searching _ whole _ | combining _ whole _ _ _ _ | settled _ whole _ => exact whole
  | plain _ _ prices | first _ _ _ prices | second _ prices _ =>
    rw [stage] at prices
    cases prices

theorem Aims.comes (aims : Aims answers s moves d f) {r : PriceResult}
    (stage : f.stage = .done r) (whole : f.key.role = .whole) : Comes answers s moves f.key r := by
  cases aims with
  | searching stage' _ _ | combining stage' _ _ _ _ _ =>
    rw [stage] at stage'
    cases stage'
  | plain _ found prices =>
    rw [stage] at prices
    have alone : answers.alone s f.key = r := by
      rw [Answers.alone, found]
      exact prices.symm
    exact alone ▸ .own
  | settled stage' _ comes =>
    rw [stage] at stage'
    cases stage'
    exact comes
  | first part _ _ _ =>
    rw [whole] at part
    cases part
  | second same _ _ =>
    rw [← (RequestKey.beq_iff.mp same).2.1] at whole
    cases whole

theorem Aims.brings (aims : Aims answers s moves d f) {leg : Leg} {p : Provider ω}
    {call : Pending MarketError Quotes} {queue : List (Provider ω)}
    (stage : f.stage = .asking leg p call queue) : ∃ outcome, call.Brings outcome := by
  cases aims with
  | searching stage' _ _ | combining stage' _ _ _ _ _ | settled stage' _ _ =>
    rw [stage] at stage'
    cases stage'
  | plain _ _ prices | first _ _ _ prices | second _ prices _ =>
    rw [stage] at prices
    obtain ⟨_, _, ⟨_, _, brings⟩, _⟩ := prices
    exact ⟨_, brings⟩

end

namespace Desk

variable {s : Setup ω} {answers : Answers ω} {d e : Desk ω} {moves : List (Move ω)}

theorem stands_move (h : Coherent d) {a : Action ω} (t : Transition s d a e) {f : Flight ω}
    (member : f ∈ d.flights) (going : f.stage.result? = none) : ∃ g ∈ e.flights, g.id = f.id := by
  cases t with
  | requested joins => exact ⟨f, joins.mem member, rfl⟩
  | @flightLooked f' survey survey' floor index flight stage looks =>
    exact (h.onFloor floor).there_setStage _ _ ⟨f, member, rfl⟩
  | ended flight ending => exact h.there_setStage _ _ ⟨f, member, rfl⟩
  | @wentOn f' stage world flight onward =>
    exact (h.onFloor { d.floor with world }).there_setStage _ _ ⟨f, member, rfl⟩
  | split flight stage loaded found one two =>
    have coherent := ((h.joining one).1.joining two).1
    exact coherent.there_setStage _ _ ⟨f, two.mem (one.mem member), rfl⟩
  | forgot => exact ⟨f, Coherent.mem_flights_forget.mpr ⟨member, .inl going⟩, rfl⟩
  | surveyed | callerLooked _ _ | collected _ _ _ | left _ | surveyLeft _ | ticked _ =>
    exact ⟨f, member, rfl⟩

theorem founder_move (h : Coherent d) {a : Action ω} (t : Transition s d a e) {f g : Flight ω}
    {i : Nat} (member : f ∈ d.flights) (going : f.stage.result? = none) (there : g ∈ d.flights)
    (stage : g.stage = .combining i f.id) :
    ∃ g' ∈ e.flights, g'.key = g.key ∧ g'.stage = .combining i f.id := by
  have leg : f.id ∈ g.stage.legs := by simp [stage, Stage.legs]
  obtain ⟨g', there', number⟩ := stands_move h t there (by rw [stage]; rfl)
  have same := legs_stay h t member going there leg there' number.symm
  exact ⟨g', there', (course h t there there' number.symm).1.symm, same.trans stage⟩

theorem aims_mono (steady : answers.Steady s) (h : Coherent d) {a : Action ω}
    (t : Transition s d a e) (m : Move ω) {f : Flight ω} (member : f ∈ d.flights)
    (aims : Aims answers s moves d f) : Aims answers s (moves ++ [m]) e f := by
  cases aims with
  | searching stage whole asks => exact .searching stage whole asks
  | plain whole found prices => exact .plain whole found prices
  | combining stage whole found lends one two =>
    exact .combining stage whole found (lends.mono _) (settled_move steady h t one)
      (settled_move steady h t two)
  | settled stage whole comes => exact .settled stage whole (comes.mono _)
  | first part pair finds prices => exact .first part pair finds prices
  | second same prices founded =>
    refine .second same prices fun going => ?_
    obtain ⟨g, there, i, first, stage, found⟩ := founded going
    obtain ⟨g', there', key, stage'⟩ := founder_move h t member going there stage
    exact ⟨g', there', i, first, stage', key ▸ found⟩

theorem aims_of_ending (informed : Informed s answers d) {f : Flight ω} {r : PriceResult}
    (aims : Aims answers s moves d f) (flight : d.flight? f.id = some f)
    (ending : Ending s d f r) (m : Move ω) :
    Aims answers s (moves ++ [m]) e { f with stage := .done r } := by
  have going := ending.going
  cases aims with
  | searching stage whole asks =>
    cases ending with
    | unfound stage' loaded concluded =>
      rw [stage] at stage'
      cases stage'
      have found := found_of_conclude informed flight stage asks loaded concluded
      have unfound : answers.alone s f.key = .error (notFound s f.key.pair) := by
        rw [Answers.alone, found]
        rfl
      exact .settled rfl whole (unfound ▸ .own)
    | exhausted stage' | priced stage' _ _ | refused stage' _ _ _ | combined stage' _ _ _ _ =>
      rw [stage] at stage'
      cases stage'
  | plain whole found prices => exact .plain whole found (prices_of_ending prices ending)
  | @combining i j first second other stage whole found lends one two =>
    cases ending with
    | combined stage' there oneDone there' twoDone =>
      rw [stage] at stage'
      cases stage'
      have price : Stage.Prices answers s first _ :=
        one.2 _ (mem_of_flight? there) (id_of_flight? there)
      have price' : Stage.Prices answers s other _ :=
        two.2 _ (mem_of_flight? there') (id_of_flight? there')
      rw [oneDone] at price
      rw [twoDone] at price'
      cases price
      cases price'
      exact .settled rfl whole (.lent found (lends.mono _))
    | unfound stage' _ _ | exhausted stage' | priced stage' _ _ | refused stage' _ _ _ =>
      rw [stage] at stage'
      cases stage'
  | settled stage _ _ =>
    rw [stage] at going
    cases going
  | first part pair finds prices => exact .first part pair finds (prices_of_ending prices ending)
  | second same prices _ =>
    refine .second same (prices_of_ending prices ending) fun unended => ?_
    cases unended

theorem aims_of_onward (steady : answers.Steady s) (informed : Informed s answers d)
    (h : Coherent d) {a : Action ω} (t : Transition s d a e) {f : Flight ω} {stage : Stage ω}
    {world : ω} (aims : Aims answers s moves d f) (flight : d.flight? f.id = some f)
    (onward : Onward s d f stage world) (m : Move ω) :
    Aims answers s (moves ++ [m]) e { f with stage } := by
  have going := onward.going.1
  cases aims with
  | searching now whole asks =>
    cases onward with
    | found now' loaded concluded =>
      rw [now] at now'
      cases now'
      have found := found_of_conclude informed flight now asks loaded concluded
      exact .plain whole found (prices_opening f.key _)
    | skipped now' _ | asked now' _ _ | retried now' _ _ _ =>
      rw [now] at now'
      cases now'
  | plain whole found prices => exact .plain whole found (prices_of_onward steady prices onward)
  | combining now _ _ _ _ _ =>
    cases onward with
    | found now' _ _ | skipped now' _ | asked now' _ _ | retried now' _ _ _ =>
      rw [now] at now'
      cases now'
  | settled now _ _ =>
    rw [now] at going
    cases going
  | first part pair finds prices =>
    exact .first part pair finds (prices_of_onward steady prices onward)
  | second same prices founded =>
    refine .second same (prices_of_onward steady prices onward) fun _ => ?_
    obtain ⟨g, there, i, first, combines, found⟩ := founded going
    obtain ⟨g', there', key, combines'⟩ := founder_move h t (mem_of_flight? flight) going there
      combines
    exact ⟨g', there', i, first, combines', key ▸ found⟩

theorem settled_first (h : Coherent d) (aims : ∀ f ∈ d.flights, Aims answers s moves d f)
    {key : RequestKey} {first second : Leg} {i : Nat}
    (found : answers.found s key = some (.converted first second))
    (one : Joining s d (firstKey key first) (some first) i e) :
    Settled e i fun g => g.stage.Prices answers s first := by
  refine one.settled h ?_ (prices_opening (firstKey key first) first)
  intro g there _ same
  obtain ⟨pair, part, network⟩ := RequestKey.beq_iff.mp same
  obtain ⟨leg, pair', finds, prices⟩ := (aims g there).first_leg part
  cases Discovery.findLeg_congr network finds (Discovery.legs_of_found found).1 (pair'.trans pair)
  exact prices

theorem settled_second (h : Coherent d) (aims : ∀ f ∈ d.flights, Aims answers s moves d f)
    {a : Action ω} {f : Flight ω} (member : f ∈ d.flights) (going : f.stage.result? = none)
    {first second : Leg} {i j : Nat} {d₁ d₂ : Desk ω}
    (finds : answers.found s f.key = some (.converted first second))
    (one : Joining s d (firstKey f.key first) (some first) i d₁)
    (two : Joining s d₁ (secondKey second) (some second) j d₂) : ∃ other,
      Lends answers s (moves ++ [⟨d, a, e⟩]) f.key second other ∧
        Settled d₂ j fun g => g.stage.Prices answers s other := by
  have h₁ := (h.joining one).1
  cases two with
  | started new =>
    exact ⟨second, .own, settled_started h₁ (prices_opening (secondKey second) second)⟩
  | joined entry same =>
    obtain ⟨g, there, rfl, rfl, going'⟩ := (h₁.underWay _ _).mp entry
    have part := (RequestKey.beq_iff.mp same).2.1
    rcases mem_joining_cases one there with was | rfl
    · obtain ⟨leg, own, prices, founded⟩ := (aims g was).second_leg part
      obtain ⟨k, among, _, _, stage, found⟩ := founded going'
      have whole := (aims k among).of_combining stage
      have met : Met (moves ++ [⟨d, a, e⟩]) f.key k.key :=
        ⟨_, List.mem_append_right _ List.mem_cons_self, f, member, k, among, going,
          by rw [stage]; rfl, BEq.rfl, BEq.rfl⟩
      obtain ⟨pair, _, network⟩ := RequestKey.beq_iff.mp (BEq.trans own same)
      have sameNetwork : (leg.network == second.network) = true :=
        Network.beq_iff.mpr (Option.some.inj network)
      have prices' : Settled d₁ g.id fun x => x.stage.Prices answers s leg :=
        settled_of_mem h₁ there prices
      rcases second_eq_or_mixed finds found pair sameNetwork with rfl | mixed
      · exact ⟨leg, .own, prices'⟩
      · exact ⟨leg, .other whole met mixed found pair sameNetwork, prices'⟩
    · cases part

theorem aims_split (steady : answers.Steady s) (informed : Informed s answers d) (h : Coherent d)
    {a : Action ω} (t : Transition s d a e) (aims : ∀ f ∈ d.flights, Aims answers s moves d f)
    {f : Flight ω} {survey : Survey ω} {listings : List (Except MarketError Listing)}
    {first second : Leg} {diagnostics : Diagnostics} {i j : Nat} {d₁ d₂ : Desk ω}
    (flight : d.flight? f.id = some f) (stage : f.stage = .surveying survey)
    (loaded : survey.results? = some listings)
    (concluded : Discovery.conclude s.options s.registry f.key.pair f.key.network listings =
      (some (.converted first second), diagnostics))
    (one : Joining s d (firstKey f.key first) (some first) i d₁)
    (two : Joining s d₁ (secondKey second) (some second) j d₂)
    (after : e = d₂.setStage f.id (.combining i j)) :
    ∀ g ∈ e.flights, Aims answers s (moves ++ [⟨d, a, e⟩]) e g := by
  have h₁ := (h.joining one).1
  have h₂ := (h₁.joining two).1
  have member := mem_of_flight? flight
  have member₂ := two.mem (one.mem member)
  have going : f.stage.result? = none := by rw [stage]; rfl
  obtain ⟨whole, asks⟩ := (aims f member).of_surveying stage
  have found := found_of_conclude informed flight stage asks loaded concluded
  have combines : { f with stage := .combining i j } ∈ e.flights := by
    rw [after]
    exact h₂.restaged member₂ (.combining i j)
  have unpriced : ∀ leg, ¬ f.stage.Prices answers s leg := by
    intro leg prices
    rw [stage] at prices
    cases prices
  intro g there
  have place : g ∈ d₂.flights ∨ g = { f with stage := .combining i j } := by
    rw [after] at there
    exact mem_setStage_cases h₂ member₂ there
  have older : g ∈ d₁.flights → Aims answers s (moves ++ [⟨d, a, e⟩]) e g := by
    intro was
    rcases mem_joining_cases one was with was | rfl
    · exact aims_mono steady h t _ was (aims g was)
    · exact .first rfl rfl (Discovery.legs_of_found found).1
        (prices_opening (firstKey f.key first) first)
  rcases place with was | rfl
  · cases two with
    | joined _ _ => exact older was
    | started _ =>
      rcases List.mem_cons.mp was with rfl | was
      · exact .second BEq.rfl (prices_opening (secondKey second) second) fun _ =>
          ⟨_, combines, i, first, rfl, found⟩
      · exact older was
  · obtain ⟨other, lends, last⟩ :=
      settled_second (a := a) (e := e) h aims member going found one two
    rw [after]
    -- The flight that is split is none of those that price its legs.
    have apart : ∀ leg, ∀ x ∈ d₂.flights, x.id = f.id → x.stage.Prices answers s leg →
        Stage.Prices answers s leg (.combining i j) := by
      intro leg x among same prices
      cases h₂.eq_of_id among member₂ same
      exact absurd prices (unpriced leg)
    have one' := ((settled_first h aims found one).joining two).setStage h₂ (apart first)
    have two' := last.setStage h₂ (apart other)
    exact .combining rfl whole found (after ▸ lends) one' two'

theorem aims_move (steady : answers.Steady s) (informed : Informed s answers d) (h : Coherent d)
    {a : Action ω} (isPublic : a.IsPublic) (t : Transition s d a e)
    (aims : ∀ f ∈ d.flights, Aims answers s moves d f) :
    ∀ g ∈ e.flights, Aims answers s (moves ++ [⟨d, a, e⟩]) e g := by
  have kept : ∀ g ∈ d.flights, Aims answers s (moves ++ [⟨d, a, e⟩]) e g :=
    fun g was => aims_mono steady h t _ was (aims g was)
  intro g there
  have move := t
  cases t with
  | requested joins =>
    rcases mem_joining_cases joins there with was | rfl
    · exact kept g was
    · exact .searching rfl isPublic (Survey.map_of _)
  | @flightLooked f survey survey' floor index flight stage looks =>
    have member := mem_of_flight? flight
    rcases mem_setStage_cases (h.onFloor floor) member there with was | rfl
    · exact kept g was
    · obtain ⟨whole, asks⟩ := (aims f member).of_surveying stage
      obtain ⟨p, l, l', here, _, rfl, _⟩ := Survey.looks_of_step looks
      exact .searching rfl whole ((Survey.map_set here).trans asks)
  | @ended f r flight ending =>
    have member := mem_of_flight? flight
    rcases mem_setStage_cases h member there with was | rfl
    · exact kept g was
    · exact aims_of_ending informed (aims f member) flight ending _
  | @wentOn f stage world flight onward =>
    have member := mem_of_flight? flight
    rcases mem_setStage_cases (h.onFloor { d.floor with world }) member there with was | rfl
    · exact kept g was
    · exact aims_of_onward steady informed h move (aims f member) flight onward _
  | split flight stage loaded concluded one two =>
    exact aims_split steady informed h move aims flight stage loaded concluded one two rfl g there
  | forgot => exact kept g (Coherent.mem_flights_forget.mp there).1
  | surveyed | callerLooked _ _ | collected _ _ _ | left _ | surveyLeft _ | ticked _ =>
    exact kept g there

theorem Run.aims (run : Run s moves d) (steady : answers.Steady s) {ttl : Duration}
    (fresh : (opened moves d).floor.listings = { ttl })
    (registered : ∀ m ∈ moves, m.IsRegistered s) :
    ∀ f ∈ d.flights, Aims answers s moves d f := by
  induction run with
  | start floor => simp
  | move run whole step ih =>
    rw [opened_append] at fresh
    have registered' := fun m member => registered m (List.mem_append_left _ member)
    have informed := run.informed steady fresh registered'
    exact aims_move steady informed run.coherent whole (transition_of_step step)
      (ih fresh registered')

end Desk

end PriceDesk
