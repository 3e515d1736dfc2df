import PriceDesk.Proofs.Desk.Runs
import PriceDesk.Proofs.Memo.Custody

namespace PriceDesk

variable {ω : Type}

namespace Survey

def visits (survey : Survey ω) : List (String × Lookup MarketError Listing) :=
  survey.map fun (p, lookup) => (p.id, lookup)

variable {survey : Survey ω} {i : Nat} {p : Provider ω} {l : Lookup MarketError Listing}

theorem mem_visits {v : String × Lookup MarketError Listing} :
    v ∈ survey.visits ↔ ∃ i : Nat, ∃ p l, survey[i]? = some (p, l) ∧ v = (p.id, l) := by
  constructor
  · intro member
    obtain ⟨⟨p, l⟩, there, rfl⟩ := List.mem_map.mp member
    obtain ⟨i, at_⟩ := List.mem_iff_getElem?.mp there
    exact ⟨i, p, l, at_, rfl⟩
  · intro given
    obtain ⟨i, p, l, at_, rfl⟩ := given
    exact List.mem_map.mpr ⟨(p, l), List.mem_of_getElem? at_, rfl⟩

theorem visits_at (there : survey[i]? = some (p, l)) :
    survey.visits.Perm ((p.id, l) :: visits (survey.eraseIdx i)) := by
  obtain ⟨below, same⟩ := List.getElem?_eq_some_iff.mp there
  have apart := (List.getElem_cons_eraseIdx_perm below).symm
  rw [same] at apart
  exact apart.map _

theorem visits_set (there : survey[i]? = some (p, l)) (l' : Lookup MarketError Listing) :
    (visits (survey.set i (p, l'))).Perm ((p.id, l') :: visits (survey.eraseIdx i)) := by
  obtain ⟨below, _⟩ := List.getElem?_eq_some_iff.mp there
  exact (List.set_perm_cons_eraseIdx below (p, l')).map _

structure Looks (timeout : Duration) (floor : Floor ω) (survey : Survey ω) (i : Nat)
    (p : Provider ω) (l l' : Lookup MarketError Listing) (survey' : Survey ω) (floor' : Floor ω) :
    Prop where
  there : survey[i]? = some (p, l)
  moved : ∃ call, p.listing = some call ∧
    l.Moved (call.invoke p.id "get_asset_pairs" timeout floor.clock.now) p.id floor.clock
      floor.listings floor.world l' floor'.listings floor'.world
  survey : survey' = survey.set i (p, l')
  clock : floor'.clock = floor.clock

theorem looks_of_step {timeout : Duration} {floor floor' : Floor ω} {survey' : Survey ω}
    (step : survey.step timeout floor i = some (survey', floor')) :
    ∃ p l l', Looks timeout floor survey i p l l' survey' floor' := by
  obtain ⟨⟨p, l⟩, there, step⟩ := Option.bind_eq_some_iff.mp step
  obtain ⟨call, lists, step⟩ := Option.bind_eq_some_iff.mp step
  obtain ⟨⟨l', listings, world⟩, moved, step⟩ := Option.bind_eq_some_iff.mp step
  cases step
  exact ⟨p, l, l', there, ⟨call, lists, Lookup.moved_of_step moved⟩, rfl, rfl⟩

theorem map_of (ps : List (Provider ω)) : (Survey.of ps).map (·.1) = ps := by
  rw [Survey.of, List.map_map]
  refine (List.map_congr_left fun p _ => ?_).trans (List.map_id ps)
  cases lists : p.listing <;> simp [lists]

theorem map_set {l' : Lookup MarketError Listing} (there : survey[i]? = some (p, l)) :
    (survey.set i (p, l')).map (·.1) = survey.map (·.1) := by
  apply List.ext_getElem?
  intro j
  rw [List.getElem?_map, List.getElem?_map, List.getElem?_set]
  split
  · rename_i same
    subst same
    obtain ⟨below, here⟩ := List.getElem?_eq_some_iff.mp there
    simp [below, here]
  · rfl

theorem quiet_of (ps : List (Provider ω)) : ∀ v ∈ (Survey.of ps).visits, v.2.ticket? = none := by
  intro v member
  obtain ⟨x, there, rfl⟩ := List.mem_map.mp member
  obtain ⟨p, _, rfl⟩ := List.mem_map.mp there
  cases p.listing <;> rfl

theorem of_at {ps : List (Provider ω)} (there : (Survey.of ps)[i]? = some (p, l)) :
    Survey.of [p] = [(p, l)] := by
  obtain ⟨q, _, first⟩ := List.mem_map.mp (List.mem_of_getElem? there)
  cases lists : q.listing <;> simp only [lists] at first <;> cases first <;> simp [Survey.of, lists]

theorem mem_of_at {ps : List (Provider ω)} (there : (Survey.of ps)[i]? = some (p, l)) :
    p ∈ ps := by
  obtain ⟨q, member, first⟩ := List.mem_map.mp (List.mem_of_getElem? there)
  cases lists : q.listing <;> simp only [lists] at first <;> cases first <;> exact member

theorem quiet_of_new (new : Survey.of [p] = [(p, l)]) : l.ticket? = none := by
  apply quiet_of [p] (p.id, l)
  rw [new]
  exact List.mem_singleton_self _

theorem quiet_of_results? {listings : List (Except MarketError Listing)}
    (loaded : survey.results? = some listings) : ∀ v ∈ survey.visits, v.2.ticket? = none := by
  induction survey generalizing listings with
  | nil => simp [visits]
  | cons x survey ih =>
    obtain ⟨p, l⟩ := x
    simp only [results?, List.mapM_cons] at loaded
    obtain ⟨r, answer, loaded⟩ := Option.bind_eq_some_iff.mp loaded
    obtain ⟨rest, loaded, _⟩ := Option.bind_eq_some_iff.mp loaded
    intro v member
    rcases List.mem_cons.mp member with rfl | later
    · cases l <;> cases answer
      rfl
    · exact ih loaded v later

theorem drop_ttl (survey : Survey ω) (m : Memo String Listing) : (survey.drop m).ttl = m.ttl := by
  induction survey generalizing m with
  | nil => rfl
  | cons x survey ih => exact (ih _).trans (Lookup.drop_ttl _ _ _)

theorem drop_entry (survey : Survey ω) (m : Memo String Listing) (k : String) :
    ((survey.drop m).slot k).entry = (m.slot k).entry := by
  induction survey generalizing m with
  | nil => rfl
  | cons x survey ih => exact (ih _).trans (Lookup.drop_entry _ _ _ k)

end Survey

def Stage.visits : Stage ω → List (String × Lookup MarketError Listing)
  | .surveying survey => survey.visits
  | _ => []

def Caller.survey? : Caller ω → Option (Survey ω)
  | .surveying survey => some survey
  | _ => none

def Caller.visits : Caller ω → List (String × Lookup MarketError Listing)
  | .surveying survey => survey.visits
  | _ => []

namespace Memo.Orderly

variable {m : Memo String Listing} {more visits : List (String × Lookup MarketError Listing)}

theorem append_iff (quiet : ∀ v ∈ more, v.2.ticket? = none) :
    m.Orderly (more ++ visits) ↔ m.Orderly visits := by
  induction more with
  | nil => exact Iff.rfl
  | cons v more ih =>
    rw [List.cons_append, idle_iff (quiet v List.mem_cons_self)]
    exact ih fun v member => quiet v (List.mem_cons_of_mem _ member)

theorem drop_survey {survey : Survey ω} (orderly : m.Orderly (survey.visits ++ visits)) :
    (survey.drop m).Orderly visits := by
  induction survey generalizing m with
  | nil => exact orderly
  | cons x survey ih => exact ih orderly.drop

end Memo.Orderly

namespace Desk

variable {s : Setup ω} {d e : Desk ω} {moves : List (Move ω)}

def visits (d : Desk ω) : List (String × Lookup MarketError Listing) :=
  d.flights.flatMap (·.stage.visits) ++ d.callers.flatMap (·.2.visits)

theorem restage_perm {flights : List (Flight ω)} {f : Flight ω} (member : f ∈ flights)
    (distinct : (flights.map (·.id)).Nodup) :
    ∃ others, flights.Perm (f :: others) ∧
      ∀ stage, (restage f.id stage flights).Perm ({ f with stage } :: others) := by
  induction flights with
  | nil => cases member
  | cons g flights ih =>
    rw [List.map_cons, List.nodup_cons] at distinct
    rcases List.mem_cons.mp member with rfl | member
    · refine ⟨flights, .refl _, fun stage => ?_⟩
      simp [restage]
    · obtain ⟨others, same, restaged⟩ := ih member distinct.2
      have differs : g.id ≠ f.id := fun equal =>
        distinct.1 (List.mem_map.mpr ⟨f, member, equal.symm⟩)
      refine ⟨g :: others, (same.cons g).trans (.swap f g others), fun stage => ?_⟩
      simp only [restage, beq_eq_false_iff_ne.mpr differs, Bool.false_eq_true, if_false]
      exact ((restaged stage).cons g).trans (.swap _ _ _)

theorem Coherent.visits_flight (h : Coherent d) {f : Flight ω} (member : f ∈ d.flights) :
    ∃ rest, d.visits.Perm (f.stage.visits ++ rest) ∧
      ∀ stage, (d.setStage f.id stage).visits.Perm (stage.visits ++ rest) := by
  obtain ⟨others, same, restaged⟩ := restage_perm member h.distinct
  refine ⟨others.flatMap (·.stage.visits) ++ d.callers.flatMap (·.2.visits), ?_, fun stage => ?_⟩
  · rw [← List.append_assoc]
    exact (same.flatMap_right _).append_right _
  · rw [← List.append_assoc]
    exact ((restaged stage).flatMap_right _).append_right _

theorem Coherent.visits_caller (h : Coherent d) {id : Nat} {c : Caller ω}
    (member : (id, c) ∈ d.callers) :
    ∃ rest, d.visits.Perm (c.visits ++ rest) ∧
      ∀ x, (d.setCaller id x).visits.Perm (x.visits ++ rest) := by
  obtain ⟨front, back, callers⟩ := List.append_of_mem member
  have apart : ∀ x : Caller ω, (front ++ (id, x) :: back).Perm ((id, x) :: (front ++ back)) :=
    fun x => List.perm_middle
  have distinct := h.callersDistinct
  rw [callers, ((apart c).map (·.1)).nodup_iff, List.map_cons, List.nodup_cons] at distinct
  have others : ∀ x : Caller ω, (front ++ back).map (fun entry =>
      if entry.1 == id then (entry.1, x) else (entry.1, entry.2)) = front ++ back := by
    intro x
    refine (List.map_congr_left fun entry there => ?_).trans (List.map_id _)
    have differs : entry.1 ≠ id := by
      intro same
      exact distinct.1 (List.mem_map.mpr ⟨entry, there, same⟩)
    simp [beq_eq_false_iff_ne.mpr differs]
  refine ⟨d.flights.flatMap (·.stage.visits) ++ (front ++ back).flatMap (·.2.visits),
    ?_, fun x => ?_⟩
  · have split := ((apart c).flatMap_right (·.2.visits)).append_left
      (d.flights.flatMap (·.stage.visits))
    rw [← callers] at split
    exact split.trans (List.perm_append_comm_assoc _ _ _)
  · have changed : (d.setCaller id x).callers.Perm ((id, x) :: (front ++ back)) := by
      have mapped := (apart c).map fun entry =>
        if entry.1 == id then (entry.1, x) else (entry.1, entry.2)
      rw [List.map_cons, others, ← callers] at mapped
      simp only [BEq.rfl, if_true] at mapped
      exact mapped
    have split := (changed.flatMap_right (·.2.visits)).append_left
      (d.flights.flatMap (·.stage.visits))
    exact split.trans (List.perm_append_comm_assoc _ _ _)

theorem visits_admitCaller (c : Caller ω) :
    (d.admitCaller c).visits.Perm (c.visits ++ d.visits) := by
  simp only [visits, admitCaller, List.flatMap_append, List.flatMap_cons, List.flatMap_nil,
    List.append_nil]
  rw [← List.append_assoc]
  exact List.perm_append_comm

theorem quiet_opening (s : Setup ω) (key : RequestKey) (leg : Option Leg) :
    ∀ v ∈ (opening s key leg).visits, v.2.ticket? = none := by
  cases leg with
  | none => exact Survey.quiet_of _
  | some leg =>
    intro v member
    cases member

theorem Ending.quiet {f : Flight ω} {r : PriceResult} (ending : Ending s d f r) :
    ∀ v ∈ f.stage.visits, v.2.ticket? = none := by
  cases ending with
  | unfound now loaded found =>
    rw [now]
    exact Survey.quiet_of_results? loaded
  | exhausted now => simp [now, Stage.visits]
  | priced now answer priced => simp [now, Stage.visits]
  | refused now answer failed final => simp [now, Stage.visits]
  | combined now one oneDone two twoDone => simp [now, Stage.visits]

theorem Onward.quiet {f : Flight ω} {stage : Stage ω} {world : ω}
    (onward : Onward s d f stage world) :
    stage.visits = [] ∧ ∀ v ∈ f.stage.visits, v.2.ticket? = none := by
  cases onward with
  | found now loaded found =>
    rw [now]
    exact ⟨rfl, Survey.quiet_of_results? loaded⟩
  | skipped now mute => exact ⟨rfl, by simp [now, Stage.visits]⟩
  | asked now quotes called => exact ⟨rfl, by simp [now, Stage.visits]⟩
  | retried now answer failed mendable => exact ⟨rfl, by simp [now, Stage.visits]⟩

theorem Joining.floor {key : RequestKey} {leg : Option Leg} {id : Nat}
    (joins : Joining s d key leg id e) : e.floor = d.floor := by
  cases joins <;> rfl

theorem orderly_joining {key : RequestKey} {leg : Option Leg} {id : Nat}
    (joins : Joining s d key leg id e) (orderly : d.floor.listings.Orderly d.visits) :
    e.floor.listings.Orderly e.visits := by
  cases joins with
  | joined _ _ => exact orderly
  | started _ =>
    change Memo.Orderly d.floor.listings ((opening s key leg).visits ++ _ ++ _)
    rw [List.append_assoc]
    exact (Memo.Orderly.append_iff (quiet_opening s key leg)).mpr orderly

theorem orderly_setStage (h : Coherent d) (orderly : d.floor.listings.Orderly d.visits)
    {f : Flight ω} (member : f ∈ d.flights) (before : ∀ v ∈ f.stage.visits, v.2.ticket? = none)
    {stage : Stage ω} (after : stage.visits = []) :
    (d.setStage f.id stage).floor.listings.Orderly (d.setStage f.id stage).visits := by
  obtain ⟨rest, same, restaged⟩ := h.visits_flight member
  have others := (Memo.Orderly.append_iff before).mp (orderly.perm same)
  apply Memo.Orderly.perm _ (restaged stage).symm
  rw [after]
  exact others

theorem orderly_setCaller (h : Coherent d) (orderly : d.floor.listings.Orderly d.visits)
    {id : Nat} {c x : Caller ω} (caller : d.caller? id = some c) (before : c.visits = [])
    (after : x.visits = []) :
    (d.setCaller id x).floor.listings.Orderly (d.setCaller id x).visits := by
  obtain ⟨rest, same, changed⟩ := h.visits_caller (mem_of_caller? caller)
  have others := orderly.perm same
  rw [before] at others
  apply Memo.Orderly.perm _ (changed x).symm
  rw [after]
  exact others

theorem orderly_looks {timeout : Duration} {floor floor' : Floor ω} {survey survey' : Survey ω}
    {i : Nat} {rest : List (String × Lookup MarketError Listing)}
    (looks : survey.step timeout floor i = some (survey', floor'))
    (orderly : floor.listings.Orderly (survey.visits ++ rest)) :
    floor'.listings.Orderly (survey'.visits ++ rest) := by
  obtain ⟨p, l, l', there, ⟨call, lists, moved⟩, rfl, clock⟩ := Survey.looks_of_step looks
  have before := orderly.perm ((Survey.visits_at there).append_right rest)
  exact (before.move moved).perm ((Survey.visits_set there l').append_right rest).symm

theorem visits_forget (d : Desk ω) : d.forget.visits = d.visits := by
  have filtered : ∀ {α β : Type} (xs : List α) (p : α → Bool) (f : α → List β),
      (∀ x ∈ xs, p x = false → f x = []) → (xs.filter p).flatMap f = xs.flatMap f := by
    intro α β xs p f nothing
    induction xs with
    | nil => rfl
    | cons x xs ih =>
      have rest := ih fun y member => nothing y (List.mem_cons_of_mem _ member)
      cases kept : p x with
      | true => rw [List.filter_cons_of_pos kept, List.flatMap_cons, List.flatMap_cons, rest]
      | false =>
        rw [List.filter_cons_of_neg (by simp [kept]), rest, List.flatMap_cons,
          nothing x List.mem_cons_self kept, List.nil_append]
  unfold visits forget
  congr 1
  · apply filtered
    intro f _ ended
    obtain ⟨id, key, stage⟩ := f
    cases stage with
    | surveying survey => cases ended
    | choosing _ _ _ | asking _ _ _ _ | combining _ _ | done _ => rfl
  · apply filtered
    intro c _ ended
    obtain ⟨id, c⟩ := c
    cases c with
    | surveying survey => cases ended
    | awaiting _ | answered _ | gone => rfl

theorem Coherent.orderly_move (h : Coherent d) (orderly : d.floor.listings.Orderly d.visits)
    {a : Action ω} (t : Transition s d a e) : e.floor.listings.Orderly e.visits := by
  cases t with
  | @requested key id e joins =>
    exact (orderly_joining joins orderly).perm (visits_admitCaller (.awaiting id)).symm
  | @surveyed ps =>
    apply Memo.Orderly.perm _ (visits_admitCaller _).symm
    exact (Memo.Orderly.append_iff (Survey.quiet_of ps)).mpr orderly
  | @flightLooked f survey survey' floor index flight stage looks =>
    obtain ⟨rest, same, restaged⟩ := h.visits_flight (mem_of_flight? flight)
    rw [stage] at same
    exact (orderly_looks looks (orderly.perm same)).perm (restaged (.surveying survey')).symm
  | @callerLooked id survey survey' floor index caller looks =>
    obtain ⟨rest, same, changed⟩ := h.visits_caller (mem_of_caller? caller)
    exact (orderly_looks looks (orderly.perm same)).perm (changed (.surveying survey')).symm
  | ended flight ending =>
    exact orderly_setStage h orderly (mem_of_flight? flight) ending.quiet rfl
  | wentOn flight onward =>
    exact orderly_setStage (h.onFloor _) orderly (mem_of_flight? flight) onward.quiet.2
      onward.quiet.1
  | split flight stage loaded found one two =>
    have coherent := ((h.joining one).1.joining two).1
    have member := two.mem (one.mem (mem_of_flight? flight))
    refine orderly_setStage coherent (orderly_joining two (orderly_joining one orderly)) member
      ?_ rfl
    rw [stage]
    exact Survey.quiet_of_results? loaded
  | collected caller flight stage => exact orderly_setCaller h orderly caller rfl rfl
  | left caller => exact orderly_setCaller h orderly caller rfl rfl
  | @surveyLeft c survey caller =>
    obtain ⟨rest, same, changed⟩ := h.visits_caller (mem_of_caller? caller)
    exact (orderly.perm same).drop_survey.perm (changed .gone).symm
  | ticked later => exact orderly
  | forgot =>
    rw [visits_forget]
    exact orderly

def opened : List (Move ω) → Desk ω → Desk ω
  | [], d => d
  | m :: _, _ => m.before

theorem opened_append (moves : List (Move ω)) (m : Move ω) (e : Desk ω) :
    opened (moves ++ [m]) e = opened moves m.before := by
  cases moves <;> rfl

/-- In every run from an empty table the lookups of the desk, and nobody else, stand in its
queues. -/
theorem Run.orderly (run : Run s moves d) {ttl : Duration}
    (fresh : (opened moves d).floor.listings = { ttl }) :
    d.floor.listings.Orderly d.visits := by
  induction run with
  | start floor =>
    rw [show floor.listings = { ttl } from fresh]
    exact Memo.Orderly.fresh ttl
  | move run whole step ih =>
    rw [opened_append] at fresh
    exact run.coherent.orderly_move (ih fresh) (transition_of_step step)

end Desk

end PriceDesk
