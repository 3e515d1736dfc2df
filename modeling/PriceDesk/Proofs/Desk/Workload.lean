import Mathlib.Algebra.GroupWithZero.Nat
import PriceDesk.Proofs.Desk.Lookups

namespace PriceDesk

variable {ω : Type}

def Action.isStep : Action ω → Bool
  | .lookup _ _ | .advance _ => true
  | .request _ | .survey _ | .collect _ | .drop _ | .tick _ | .forget => false

def Lookup.work {ε ν : Type} : Lookup ε ν → Nat
  | .idle => 3
  | .queued _ => 2
  | .computing _ _ => 1
  | .done _ => 0

theorem Lookup.Moved.work_lt {κ ε ν : Type} [BEq κ] {start : ω → Pending ε ν × ω} {key : κ}
    {clock : Clock} {m m' : Memo κ ν} {w w' : ω} {l l' : Lookup ε ν}
    (moved : Lookup.Moved start key clock m w l l' m' w') : l'.work < l.work := by
  cases moved <;> simp [Lookup.work]

def looking (visits : List (String × Lookup MarketError Listing)) : Nat :=
  (visits.map (·.2.work)).sum

theorem looking_perm {visits visits' : List (String × Lookup MarketError Listing)}
    (same : visits.Perm visits') : looking visits = looking visits' :=
  (same.map _).sum_nat

theorem looking_nil : looking [] = 0 := rfl

theorem looking_append (visits visits' : List (String × Lookup MarketError Listing)) :
    looking (visits ++ visits') = looking visits + looking visits' := by
  rw [looking, List.map_append, List.sum_append_nat]
  rfl

theorem Survey.looking_lt {timeout : Duration} {floor floor' : Floor ω} {survey survey' : Survey ω}
    {i : Nat} (looks : survey.step timeout floor i = some (survey', floor')) :
    looking survey'.visits < looking survey.visits := by
  obtain ⟨p, l, l', there, ⟨call, _, moved⟩, rfl, _⟩ := Survey.looks_of_step looks
  have before : looking survey.visits = l.work + looking (visits (survey.eraseIdx i)) :=
    looking_perm (visits_at there)
  have after : looking (visits (survey.set i (p, l'))) =
      l'.work + looking (visits (survey.eraseIdx i)) := looking_perm (visits_set there l')
  rw [before, after]
  exact Nat.add_lt_add_right moved.work_lt _

def Stage.course (s : Setup ω) : Stage ω → Nat
  | .surveying _ => 4 * s.registry.providers.length + 5
  | stage => stage.ahead

def Stage.work (s : Setup ω) (stage : Stage ω) : Nat := looking stage.visits + stage.course s

theorem Stage.work_pos (s : Setup ω) {stage : Stage ω} (going : stage.result? = none) :
    0 < stage.work s := by
  cases stage with
  | done r => cases going
  | surveying _ | choosing _ _ _ | asking _ _ _ _ | combining _ _ =>
    simp only [Stage.work, Stage.course, Stage.ahead]
    omega

namespace Desk

variable {s : Setup ω} {d e : Desk ω}

def work (s : Setup ω) (d : Desk ω) : Nat :=
  looking d.visits + (d.flights.map (·.stage.course s)).sum

theorem work_setStage (s : Setup ω) (h : Coherent d) {f : Flight ω} (member : f ∈ d.flights)
    (stage : Stage ω) :
    (d.setStage f.id stage).work s + f.stage.work s = d.work s + stage.work s := by
  obtain ⟨rest, visits, visits'⟩ := h.visits_flight member
  obtain ⟨others, flights, flights'⟩ := restage_perm member h.distinct
  have looks : looking d.visits = looking f.stage.visits + looking rest :=
    (looking_perm visits).trans (looking_append _ _)
  have looks' : looking (d.setStage f.id stage).visits = looking stage.visits + looking rest :=
    (looking_perm (visits' stage)).trans (looking_append _ _)
  have courses : (d.flights.map (·.stage.course s)).sum =
      f.stage.course s + (others.map (·.stage.course s)).sum := (flights.map _).sum_nat
  have courses' : ((d.setStage f.id stage).flights.map (·.stage.course s)).sum =
      stage.course s + (others.map (·.stage.course s)).sum := ((flights' stage).map _).sum_nat
  simp only [work, Stage.work, looks, looks', courses, courses']
  omega

theorem work_setCaller (s : Setup ω) (h : Coherent d) {id : Nat} {c : Caller ω}
    (member : (id, c) ∈ d.callers) (x : Caller ω) :
    (d.setCaller id x).work s + looking c.visits = d.work s + looking x.visits := by
  obtain ⟨rest, visits, visits'⟩ := h.visits_caller member
  have looks : looking d.visits = looking c.visits + looking rest :=
    (looking_perm visits).trans (looking_append _ _)
  have looks' : looking (d.setCaller id x).visits = looking x.visits + looking rest :=
    (looking_perm (visits' x)).trans (looking_append _ _)
  have same : (d.setCaller id x).flights = d.flights := rfl
  simp only [work, looks, looks', same]
  omega

theorem work_onFloor (s : Setup ω) (d : Desk ω) (floor : Floor ω) :
    (d.onFloor floor).work s = d.work s :=
  rfl

theorem mem_askOrder {leg : Leg} {p : Provider ω}
    (member : p ∈ s.registry.onNetwork leg.network .pricing) : p ∈ opening.askOrder s leg := by
  unfold opening.askOrder
  cases found : p.id == leg.provider with
  | true => exact List.mem_append_left _ (List.mem_filter.mpr ⟨member, found⟩)
  | false =>
    have other : (p.id != leg.provider) = true := by rw [bne, found]; rfl
    exact List.mem_append_right _ (List.mem_filter.mpr ⟨member, other⟩)

theorem length_askOrder (s : Setup ω) (leg : Leg) :
    (opening.askOrder s leg).length ≤ s.registry.providers.length := by
  have halves : (opening.askOrder s leg).length =
      (s.registry.onNetwork leg.network .pricing).length := by
    rw [opening.askOrder, List.length_append]
    exact (List.length_eq_length_filter_add _).symm
  rw [halves]
  exact Nat.le_trans (List.length_filter_le _ _) Registry.having_sublist.length_le

theorem work_opening (key : RequestKey) (leg : Leg) :
    (opening s key (some leg)).work s ≤ 2 * s.registry.providers.length + 1 := by
  have bound := length_askOrder s leg
  simp only [opening, Stage.work, Stage.visits, Stage.course, Stage.ahead, looking_nil]
  omega

theorem work_joining {key : RequestKey} {leg : Leg} {id : Nat}
    (joins : Joining s d key (some leg) id e) :
    e.work s ≤ d.work s + (2 * s.registry.providers.length + 1) := by
  cases joins with
  | joined _ _ => exact Nat.le_add_right _ _
  | started _ =>
    have bound := work_opening (s := s) key leg
    have visits : (d.started s key (some leg)).visits = d.visits := rfl
    have courses : ((d.started s key (some leg)).flights.map (·.stage.course s)).sum =
        (opening s key (some leg)).course s + (d.flights.map (·.stage.course s)).sum := rfl
    simp only [work, visits, courses]
    simp only [Stage.work] at bound
    omega

theorem work_of_onward {f : Flight ω} {stage : Stage ω} {world : ω}
    (onward : Onward s d f stage world) : stage.work s < f.stage.work s := by
  cases onward with
  | @found survey listings leg diagnostics now _ _ =>
    have bound := work_opening (s := s) f.key leg
    rw [now]
    simp only [Stage.work, Stage.course] at bound ⊢
    omega
  | skipped now _ | asked now _ _ | retried now _ _ _ =>
    rw [now]
    simp only [Stage.work, Stage.visits, Stage.course, Stage.ahead, List.length_cons]
    omega

theorem work_lt (h : Coherent d) {a : Action ω} (t : Transition s d a e)
    (isStep : a.isStep = true) : e.work s < d.work s := by
  cases t with
  | @flightLooked f survey survey' floor index flight stage looks =>
    have sum := work_setStage s (h.onFloor floor) (mem_of_flight? flight) (.surveying survey')
    have less := Survey.looking_lt looks
    rw [stage, work_onFloor] at sum
    simp only [Stage.work, Stage.visits, Stage.course] at sum
    omega
  | @callerLooked id survey survey' floor index caller looks =>
    have sum := work_setCaller s (h.onFloor floor) (mem_of_caller? caller) (.surveying survey')
    have less := Survey.looking_lt looks
    rw [work_onFloor] at sum
    simp only [Caller.visits] at sum
    omega
  | @ended f r flight ending =>
    have sum := work_setStage s h (mem_of_flight? flight) (.done r)
    have open_ := Stage.work_pos s ending.going
    have same : (d.complete f r).work s = (d.setStage f.id (.done r)).work s := rfl
    have nothing : (Stage.done r : Stage ω).work s = 0 := rfl
    omega
  | @wentOn f stage world flight onward =>
    have sum := work_setStage s (h.onFloor { d.floor with world }) (mem_of_flight? flight) stage
    have less := work_of_onward onward
    rw [work_onFloor] at sum
    omega
  | @split f survey listings first second diagnostics i j d₁ d₂ flight stage loaded found one two =>
    have coherent := ((h.joining one).1.joining two).1
    have member := two.mem (one.mem (mem_of_flight? flight))
    have sum := work_setStage s coherent member (.combining i j)
    have more := work_joining one
    have more' := work_joining two
    rw [stage] at sum
    simp only [Stage.work, Stage.visits, Stage.course, Stage.ahead, looking_nil] at sum
    omega
  | requested _ | surveyed | collected _ _ _ | left _ | surveyLeft _ | ticked _ | forgot =>
    cases isStep

end Desk

end PriceDesk
