import PriceDesk.Desk.Aggregate
import PriceDesk.Proofs.Desk.Lookups
import PriceDesk.Proofs.Desk.Reach
import PriceDesk.Proofs.Desk.SharedFlights

namespace PriceDesk

variable {ω : Type}

def PricingFeatures.HasMode (f : PricingFeatures) : Prop :=
  f.single = true ∨ f.bulk = true ∨ f.canReturnAll = true

def Setup.HasModes (s : Setup ω) : Prop :=
  ∀ p ∈ s.registry.providers, ∀ pricing, p.pricing = some pricing → pricing.features.HasMode

def Provider.Serves (p : Provider ω) (r : RequestedPairs) : Prop :=
  ∃ pricing, p.pricing = some pricing ∧ pricing.features.supports r = true

theorem Desk.supports_singleOrAll {f : PricingFeatures} (mode : f.HasMode) (pair : AssetPair) :
    f.supports (singleOrAll f pair) = true := by
  unfold singleOrAll
  split
  · next single => exact single
  · next other =>
    rcases mode with single | bulk | all
    · exact absurd (Bool.or_eq_true_iff.mpr (.inl single)) other
    · exact absurd (Bool.or_eq_true_iff.mpr (.inr bulk)) other
    · exact all

/-- A call to a provider of the registry. Prices are asked for as `may` says. -/
inductive Deal (s : Setup ω) (may : Provider ω → RequestedPairs → Prop) : ω → ω → Prop
  | listed {p : Provider ω} {call : Call ω Listing} (member : p ∈ s.registry.providers)
      (lists : p.listing = some call) (patience : Option Duration) (now : Instant) (w : ω) :
      Deal s may w (call patience now w).2
  | quoted {p : Provider ω} {pricing : Pricing ω} {r : RequestedPairs}
      (member : p ∈ s.registry.providers) (quotes : p.pricing = some pricing) (fits : may p r)
      (patience : Option Duration) (now : Instant) (w : ω) :
      Deal s may w (pricing.call r patience now w).2
  | booked {p : Provider ω} {ask : AssetPair → Nat → Call ω OrderBook}
      (member : p ∈ s.registry.providers) (shows : p.orderBook = some ask) (pair : AssetPair)
      (depth : Nat) (patience : Option Duration) (now : Instant) (w : ω) :
      Deal s may w (ask pair depth patience now w).2
  | traded {p : Provider ω} {volumes : Volumes ω} (member : p ∈ s.registry.providers)
      (tells : p.volumes = some volumes) (r : RequestedPairs) (patience : Option Duration)
      (now : Instant) (w : ω) :
      Deal s may w (volumes.call r patience now w).2

abbrev Deals (s : Setup ω) (may : Provider ω → RequestedPairs → Prop) : ω → ω → Prop :=
  Relation.ReflTransGen (Deal s may)

theorem Deals.mono {s : Setup ω} {may may' : Provider ω → RequestedPairs → Prop}
    (more : ∀ p r, may p r → may' p r) {w w' : ω} (deals : Deals s may w w') :
    Deals s may' w w' := by
  refine Relation.ReflTransGen.mono (fun w w' deal => ?_) _ _ deals
  cases deal with
  | listed member lists patience now => exact .listed member lists patience now w
  | quoted member quotes fits patience now =>
    exact .quoted member quotes (more _ _ fits) patience now w
  | booked member shows pair depth patience now =>
    exact .booked member shows pair depth patience now w
  | traded member tells r patience now => exact .traded member tells r patience now w

def Stage.providers : Stage ω → List (Provider ω)
  | .surveying survey => survey.map (·.1)
  | .choosing _ queue _ => queue
  | .asking _ p _ queue => p :: queue
  | .combining _ _ | .done _ => []

def Caller.providers : Caller ω → List (Provider ω)
  | .surveying survey => survey.map (·.1)
  | .awaiting _ | .answered _ | .gone => []

namespace Survey

variable {s : Setup ω} {survey survey' : Survey ω} {floor floor' : Floor ω} {i : Nat}
  {p : Provider ω} {l l' : Lookup MarketError Listing} {timeout : Duration}

theorem Looks.providers (looks : Looks timeout floor survey i p l l' survey' floor') :
    survey'.map (·.1) = survey.map (·.1) := by
  rw [looks.survey]
  exact map_set looks.there

theorem Looks.deals (looks : Looks timeout floor survey i p l l' survey' floor')
    (staffed : survey.map (·.1) ⊆ s.registry.providers)
    (may : Provider ω → RequestedPairs → Prop) : Deals s may floor.world floor'.world := by
  obtain ⟨call, lists, moved⟩ := looks.moved
  have member : p ∈ s.registry.providers :=
    staffed (List.mem_map_of_mem (List.mem_of_getElem? looks.there))
  generalize floor'.listings = m', floor'.world = w' at moved
  cases moved with
  -- Only here is the provider called; every other move of a lookup leaves the world alone.
  | began _ _ => exact .single (.listed member lists _ _ _)
  | entered | recalled _ _ | stored _ | failed _ => exact .refl

end Survey

namespace Desk

variable {s : Setup ω} {d e : Desk ω}

structure Staffed (s : Setup ω) (d : Desk ω) : Prop where
  coherent : Coherent d
  flights : ∀ f ∈ d.flights, f.stage.providers ⊆ s.registry.providers
  callers : ∀ c ∈ d.callers, c.2.providers ⊆ s.registry.providers

theorem providers_opening (key : RequestKey) (leg : Option Leg) :
    (opening s key leg).providers ⊆ s.registry.providers := by
  cases leg with
  | none =>
    simp only [opening, Stage.providers, Survey.map_of]
    exact Discovery.sources_sublist.subset
  | some leg =>
    intro p member
    rcases List.mem_append.mp member with there | there <;>
      exact (Discovery.mem_having.mp (List.mem_filter.mp (List.mem_filter.mp there).1).1).1

theorem Onward.providers {f : Flight ω} {stage : Stage ω} {world : ω}
    (onward : Onward s d f stage world) (staffed : f.stage.providers ⊆ s.registry.providers) :
    stage.providers ⊆ s.registry.providers := by
  cases onward with
  | found _ _ _ => exact providers_opening f.key _
  | skipped now _ =>
    rw [now] at staffed
    exact List.Subset.trans (List.subset_cons_self _ _) staffed
  | asked now _ _ =>
    rw [now] at staffed
    exact staffed
  | retried now _ _ _ =>
    rw [now] at staffed
    exact List.Subset.trans (List.subset_cons_self _ _) staffed

theorem Onward.deals {f : Flight ω} {stage : Stage ω} {world : ω}
    (onward : Onward s d f stage world) (staffed : f.stage.providers ⊆ s.registry.providers)
    (modes : s.HasModes) : Deals s Provider.Serves d.floor.world world := by
  cases onward with
  | asked now quotes called =>
    rw [now] at staffed
    have member := staffed List.mem_cons_self
    have serves := supports_singleOrAll (modes _ member _ quotes)
    cases called
    exact .single (.quoted member quotes ⟨_, quotes, serves _⟩ _ _ _)
  | found _ _ _ | skipped _ _ | retried _ _ _ _ => exact .refl

theorem Joining.providers {key : RequestKey} {leg : Option Leg} {id : Nat}
    (joins : Joining s d key leg id e)
    (staffed : ∀ f ∈ d.flights, f.stage.providers ⊆ s.registry.providers) :
    ∀ f ∈ e.flights, f.stage.providers ⊆ s.registry.providers := by
  intro f member
  rcases mem_joining_cases joins member with was | rfl
  · exact staffed f was
  · exact providers_opening key leg

namespace Staffed

theorem empty (s : Setup ω) (floor : Floor ω) : Staffed s { floor } where
  coherent := .empty floor
  flights := fun _ member => by cases member
  callers := fun _ member => by cases member

theorem setStage (staffed : Staffed s d) {f : Flight ω} {stage : Stage ω}
    (member : f ∈ d.flights) (providers : stage.providers ⊆ s.registry.providers) :
    ∀ g ∈ (d.setStage f.id stage).flights, g.stage.providers ⊆ s.registry.providers := by
  intro g there
  rcases mem_setStage_cases staffed.coherent member there with was | rfl
  · exact staffed.flights g was
  · exact providers

theorem setCaller (staffed : Staffed s d) {id : Nat} {c : Caller ω}
    (providers : c.providers ⊆ s.registry.providers) :
    ∀ x ∈ (d.setCaller id c).callers, x.2.providers ⊆ s.registry.providers := by
  intro x there
  rcases Coherent.mem_setCaller.mp there with ⟨was, _⟩ | ⟨rfl, _⟩
  · exact staffed.callers x was
  · exact providers

theorem admitCaller (staffed : Staffed s d) (same : e.callers = d.callers) {c : Caller ω}
    (providers : c.providers ⊆ s.registry.providers) :
    ∀ x ∈ (e.admitCaller c).callers, x.2.providers ⊆ s.registry.providers := by
  intro x there
  rcases List.mem_append.mp there with was | last
  · exact staffed.callers x (same ▸ was)
  · cases List.mem_singleton.mp last
    exact providers

theorem onFloor (staffed : Staffed s d) (floor : Floor ω) : Staffed s (d.onFloor floor) where
  coherent := staffed.coherent.onFloor floor
  flights := staffed.flights
  callers := staffed.callers

theorem move (staffed : Staffed s d) {a : Action ω} (enrolled : a.Enrolled s)
    (t : Transition s d a e) : Staffed s e := by
  have coherent := staffed.coherent.move t
  cases t with
  | requested joins =>
    refine ⟨coherent, joins.providers staffed.flights, ?_⟩
    exact staffed.admitCaller joins.callers (List.nil_subset _)
  | surveyed =>
    refine ⟨coherent, staffed.flights, staffed.admitCaller rfl ?_⟩
    rw [Caller.providers, Survey.map_of]
    exact enrolled
  | flightLooked flight stage looks =>
    obtain ⟨p, l, l', looks⟩ := Survey.looks_of_step looks
    have member := mem_of_flight? flight
    have providers := staffed.flights _ member
    rw [stage, Stage.providers, ← looks.providers] at providers
    exact ⟨coherent, (staffed.onFloor _).setStage member providers, staffed.callers⟩
  | callerLooked caller looks =>
    obtain ⟨p, l, l', looks⟩ := Survey.looks_of_step looks
    have providers := staffed.callers _ (mem_of_caller? caller)
    rw [Caller.providers, ← looks.providers] at providers
    exact ⟨coherent, staffed.flights, (staffed.onFloor _).setCaller providers⟩
  | ended flight ending =>
    exact ⟨coherent, staffed.setStage (mem_of_flight? flight) (List.nil_subset _), staffed.callers⟩
  | wentOn flight onward =>
    have member := mem_of_flight? flight
    exact ⟨coherent,
      (staffed.onFloor _).setStage member (onward.providers (staffed.flights _ member)),
      staffed.callers⟩
  | split flight stage loaded found one two =>
    have joined := two.providers (one.providers staffed.flights)
    have member := two.mem (one.mem (mem_of_flight? flight))
    have linked := ((staffed.coherent.joining one).1.joining two).1
    refine ⟨coherent, fun g there => ?_, two.callers ▸ one.callers ▸ staffed.callers⟩
    rcases mem_setStage_cases linked member there with was | rfl
    · exact joined g was
    · exact List.nil_subset _
  | collected caller flight stage =>
    exact ⟨coherent, staffed.flights, staffed.setCaller (List.nil_subset _)⟩
  | left caller => exact ⟨coherent, staffed.flights, staffed.setCaller (List.nil_subset _)⟩
  | surveyLeft caller => exact ⟨coherent, staffed.flights, staffed.setCaller (List.nil_subset _)⟩
  | ticked later => exact ⟨coherent, staffed.flights, staffed.callers⟩
  | forgot =>
    exact ⟨coherent, fun f member => staffed.flights f (Coherent.mem_flights_forget.mp member).1,
      fun c member => staffed.callers c (Coherent.mem_callers_forget.mp member).1⟩

theorem deals (staffed : Staffed s d) (modes : s.HasModes) {a : Action ω}
    (t : Transition s d a e) : Deals s Provider.Serves d.floor.world e.floor.world := by
  cases t with
  | flightLooked flight stage looks =>
    obtain ⟨p, l, l', looks⟩ := Survey.looks_of_step looks
    have providers := staffed.flights _ (mem_of_flight? flight)
    rw [stage] at providers
    exact looks.deals providers _
  | callerLooked caller looks =>
    obtain ⟨p, l, l', looks⟩ := Survey.looks_of_step looks
    exact looks.deals (staffed.callers _ (mem_of_caller? caller)) _
  | wentOn flight onward =>
    exact onward.deals (staffed.flights _ (mem_of_flight? flight)) modes
  | requested joins => exact joins.floor ▸ .refl
  | split flight stage loaded found one two => exact two.floor ▸ one.floor ▸ .refl
  | surveyed | ended _ _ | collected _ _ _ | left _ | surveyLeft _ | ticked _ | forgot =>
    exact .refl

end Staffed

/-- From one desk to another, which has to do with registered providers, by calls as `may` says. -/
structure Fares (s : Setup ω) (may : Provider ω → RequestedPairs → Prop) (d e : Desk ω) : Prop where
  staffed : Staffed s e
  deals : Deals s may d.floor.world e.floor.world

theorem Fares.mono {may may' : Provider ω → RequestedPairs → Prop} (fares : Fares s may d e)
    (more : ∀ p r, may p r → may' p r) : Fares s may' d e :=
  ⟨fares.staffed, fares.deals.mono more⟩

theorem Staffed.reaches (staffed : Staffed s d) (modes : s.HasModes) (reached : Reaches s d e) :
    Fares s Provider.Serves d e := by
  induction reached with
  | refl => exact ⟨staffed, .refl⟩
  | tail _ leads ih =>
    obtain ⟨a, enrolled, step⟩ := leads
    have t := transition_of_step step
    exact ⟨ih.staffed.move enrolled t, ih.deals.trans (ih.staffed.deals modes t)⟩

end Desk

end PriceDesk
