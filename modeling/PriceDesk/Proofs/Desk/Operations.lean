import PriceDesk.Proofs.Desk.Dealings

namespace PriceDesk

variable {ω α : Type}

inductive Operation (ω : Type) where
  | move (a : Action ω)
  | prices (keys : List RequestKey)
  | rush (visits : List Visit) (probeAfter : Duration)
  | discover (pair : AssetPair) (network : Option Network)
  | quotesForPair (pair : AssetPair)
  | quotesOnNetwork (network : Network) (requested : RequestedPairs)
  | volumesForPair (pair : AssetPair)
  | orderBook (network : Network) (pair : AssetPair) (depth : Nat)
  | pairsOnNetwork (network : Network)
  | allPairs
  | providersForPair (pair : AssetPair)

namespace Operation

def Enrolled (s : Setup ω) : Operation ω → Prop
  | .move a => a.Enrolled s
  | _ => True

def perform (s : Setup ω) (d : Desk ω) : Operation ω → Desk ω
  | .move a => (Desk.step s d a).getD d
  | .prices keys => (Desk.prices s d keys).2
  | .rush visits probeAfter => (Rush.run s d visits probeAfter).desk
  | .discover pair network => (Desk.discover s d pair network).2
  | .quotesForPair pair => (Desk.quotesForPair s d pair).2
  | .quotesOnNetwork network requested => (Desk.quotesOnNetwork s d network requested).2
  | .volumesForPair pair => (Desk.volumesForPair s d pair).2
  | .orderBook network pair depth => (Desk.orderBook s d network pair depth).2
  | .pairsOnNetwork network => (Desk.pairsOnNetwork s d network).2
  | .allPairs => (Desk.allPairs s d).2
  | .providersForPair pair => (Desk.providersForPair s d pair).2

/-- Whether it asks for one of several pairs by itself where nothing but everything can be had. -/
def AsksSingly (s : Setup ω) (op : Operation ω) (p : Provider ω) (r : RequestedPairs) : Prop :=
  ∃ network ps pair pricing, op = .quotesOnNetwork network (.pairs ps) ∧
    s.registry.preferred? network .pricing = some p ∧ p.pricing = some pricing ∧
    pricing.features.single = false ∧ pricing.features.bulk = false ∧
    pair ∈ ps ∧ r = .single pair

def performAll (s : Setup ω) (d : Desk ω) (ops : List (Operation ω)) : Desk ω :=
  ops.foldl (perform s) d

end Operation

namespace Floor

variable {s : Setup ω} {may : Provider ω → RequestedPairs → Prop}

theorem deals_together (f : Floor ω) {calls : List (Instant → ω → Pending MarketError α × ω)}
    (each : ∀ call ∈ calls, ∀ now w, Deals s may w (call now w).2) :
    Deals s may f.world (f.together calls).2.world := by
  have begun (now : Instant) (w : ω) : Deals s may w (beginAll now w calls).2 := by
    induction calls generalizing w with
    | nil => exact .refl
    | cons call calls ih =>
      have first := each call List.mem_cons_self now w
      exact first.trans (ih (fun call later => each call (List.mem_cons_of_mem _ later)) _)
  exact begun f.clock.now f.world

end Floor

namespace Desk

variable {s : Setup ω} {d e : Desk ω}

theorem reaches_coverage (pair : AssetPair) (c : Capability) :
    Reaches s d (coverage s d pair c).2 ∧ ∀ covered, (coverage s d pair c).1 = .ok covered →
      ∀ x ∈ covered, x.1 ∈ s.registry.providers := by
  have reached := reaches_survey (s := s) d fun _ => Discovery.mem_of_direct (c := c)
  unfold coverage
  simp only
  split
  · exact ⟨.refl, fun covered covers => by cases covers⟩
  · generalize survey s d (s.registry.direct c) = surveyed at reached ⊢
    refine ⟨reached, fun covered covers => ?_⟩
    cases covers
    intro x member
    obtain ⟨⟨p, listing⟩, there, found⟩ := List.mem_filterMap.mp member
    have known := Discovery.mem_of_direct (List.of_mem_zip there).1
    cases listing with
    | error e => cases found
    | ok l =>
      simp only at found
      split at found
      · cases found
        exact known
      · split at found <;> cases found
        exact known

theorem deals_quoteCall (modes : s.HasModes) (pair : AssetPair) {x : Coverage ω}
    (member : x.1 ∈ s.registry.providers) (now : Instant) (w : ω) :
    Deals s Provider.Serves w (quoteCall s pair x now w).2 := by
  obtain ⟨p, isReversed⟩ := x
  unfold quoteCall
  simp only
  split
  · exact .refl
  · next pricing quotes =>
    have serves := supports_singleOrAll (modes p member pricing quotes)
    exact .single (.quoted member quotes ⟨pricing, quotes, serves _⟩ _ _ _)

theorem deals_volumeCall (may : Provider ω → RequestedPairs → Prop) (pair : AssetPair)
    {x : Coverage ω} (member : x.1 ∈ s.registry.providers) (now : Instant) (w : ω) :
    Deals s may w (volumeCall s pair x now w).2 := by
  obtain ⟨p, isReversed⟩ := x
  unfold volumeCall
  simp only
  split
  · exact .refl
  · next volumes tells => exact .single (.traded member tells _ _ _ _)

namespace Staffed

theorem call (staffed : Staffed s d) (modes : s.HasModes) (reached : Reaches s d e)
    {may : Provider ω → RequestedPairs → Prop} (more : ∀ p r, p.Serves r → may p r)
    {floor : Floor ω} (deals : Deals s may e.floor.world floor.world) :
    Fares s may d { e with floor } := by
  have after := staffed.reaches modes reached
  exact ⟨after.staffed.onFloor floor, (after.deals.mono more).trans deals⟩

theorem callEach (staffed : Staffed s d) (modes : s.HasModes) (reached : Reaches s d e)
    {covered : List (Coverage ω)} (registered : ∀ x ∈ covered, x.1 ∈ s.registry.providers)
    {ask : Coverage ω → Instant → ω → Pending MarketError α × ω}
    (asks : ∀ x, x.1 ∈ s.registry.providers → ∀ now w,
      Deals s Provider.Serves w (ask x now w).2) :
    Fares s Provider.Serves d { e with floor := (e.floor.together (covered.map ask)).2 } := by
  refine staffed.call modes reached (fun _ _ serves => serves) (Floor.deals_together _ ?_)
  intro call member
  obtain ⟨x, there, rfl⟩ := List.mem_map.mp member
  exact asks x (registered x there)

theorem quotesForPair (staffed : Staffed s d) (modes : s.HasModes) (pair : AssetPair) :
    Fares s Provider.Serves d (quotesForPair s d pair).2 := by
  obtain ⟨reached, registered⟩ := reaches_coverage (s := s) (d := d) pair .pricing
  unfold Desk.quotesForPair
  generalize coverage s d pair .pricing = x at reached registered ⊢
  obtain ⟨covered, e⟩ := x
  cases covered with
  | error _ => exact staffed.reaches modes reached
  | ok covered =>
    exact staffed.callEach modes reached (registered covered rfl) fun _ member =>
      deals_quoteCall modes pair member

theorem volumesForPair (staffed : Staffed s d) (modes : s.HasModes) (pair : AssetPair) :
    Fares s Provider.Serves d (volumesForPair s d pair).2 := by
  obtain ⟨reached, registered⟩ := reaches_coverage (s := s) (d := d) pair .volume
  unfold Desk.volumesForPair
  generalize coverage s d pair .volume = x at reached registered ⊢
  obtain ⟨covered, e⟩ := x
  cases covered with
  | error _ => exact staffed.reaches modes reached
  | ok covered =>
    exact staffed.callEach modes reached (registered covered rfl) fun _ member =>
      deals_volumeCall _ pair member

theorem orderBook (staffed : Staffed s d) (modes : s.HasModes) (network : Network)
    (pair : AssetPair) (depth : Nat) :
    Fares s Provider.Serves d (orderBook s d network pair depth).2 := by
  unfold Desk.orderBook
  simp only
  split
  · exact ⟨staffed, .refl⟩
  next p preferred =>
  split
  · exact ⟨staffed, .refl⟩
  next ask shows =>
  have member := Discovery.mem_of_preferred? preferred
  refine staffed.call modes .refl (fun _ _ serves => serves) (.single ?_)
  exact .booked member shows _ _ _ _ _

theorem pairsOnNetwork (staffed : Staffed s d) (modes : s.HasModes) (network : Network) :
    Fares s Provider.Serves d (pairsOnNetwork s d network).2 := by
  unfold Desk.pairsOnNetwork
  split
  · exact ⟨staffed, .refl⟩
  · next p preferred =>
    refine staffed.reaches modes (reaches_survey d fun q member => ?_)
    cases List.mem_singleton.mp member
    exact Discovery.mem_of_preferred? preferred

theorem quotesOnNetwork (staffed : Staffed s d) (modes : s.HasModes) (network : Network)
    (requested : RequestedPairs) :
    Fares s (fun p r =>
        p.Serves r ∨ (Operation.quotesOnNetwork network requested).AsksSingly s p r)
      d (quotesOnNetwork s d network requested).2 := by
  unfold Desk.quotesOnNetwork
  simp only
  split
  · exact ⟨staffed, .refl⟩
  next p preferred =>
  split
  · exact ⟨staffed, .refl⟩
  next pricing quotes =>
  have member := Discovery.mem_of_preferred? preferred
  split
  · next supported =>
    refine staffed.call modes .refl (fun _ _ => .inl) (.single ?_)
    exact .quoted member quotes (.inl ⟨pricing, quotes, supported⟩) _ _ _
  · cases requested with
    | all => exact ⟨staffed, .refl⟩
    | pairs ps =>
      refine staffed.call modes .refl (fun _ _ => .inl) (Floor.deals_together _ ?_)
      intro call listed now w
      obtain ⟨pair, named, rfl⟩ := List.mem_map.mp listed
      refine .single (.quoted member quotes ?_ _ _ _)
      -- Only the whole request was found unsupported; the pair by itself may yet be supported.
      cases single : pricing.features.supports (.single pair) with
      | true => exact .inl ⟨pricing, quotes, single⟩
      | false =>
        obtain ⟨neither, nor⟩ := Bool.or_eq_false_iff.mp single
        exact .inr ⟨network, ps, pair, pricing, rfl, preferred, quotes, neither, nor, named, rfl⟩

theorem perform (staffed : Staffed s d) (modes : s.HasModes) {op : Operation ω}
    (enrolled : op.Enrolled s) :
    Fares s (fun p r => p.Serves r ∨ op.AsksSingly s p r) d (op.perform s d) := by
  have plain {e : Desk ω} (fares : Fares s Provider.Serves d e) :
      Fares s (fun p r => p.Serves r ∨ op.AsksSingly s p r) d e :=
    fares.mono fun _ _ => .inl
  have reaches {e : Desk ω} (reached : Reaches s d e) := plain (staffed.reaches modes reached)
  cases op with
  | move a =>
    cases step : Desk.step s d a with
    | none =>
      simp only [Operation.perform, step]
      exact ⟨staffed, .refl⟩
    | some e =>
      simp only [Operation.perform, step]
      exact reaches (.single ⟨a, enrolled, step⟩)
  | prices keys => exact reaches (reaches_prices d keys)
  | rush visits probeAfter => exact reaches (Rush.reaches_rush d visits probeAfter)
  | discover pair network => exact reaches (reaches_discover d pair network)
  | quotesForPair pair => exact plain (staffed.quotesForPair modes pair)
  | quotesOnNetwork network requested => exact staffed.quotesOnNetwork modes network requested
  | volumesForPair pair => exact plain (staffed.volumesForPair modes pair)
  | orderBook network pair depth => exact plain (staffed.orderBook modes network pair depth)
  | pairsOnNetwork network => exact plain (staffed.pairsOnNetwork modes network)
  | allPairs => exact reaches (reaches_survey d fun _ => Discovery.mem_of_direct)
  | providersForPair pair => exact reaches (reaches_survey d fun _ => Discovery.mem_of_direct)

theorem performAll (staffed : Staffed s d) (modes : s.HasModes) {ops : List (Operation ω)}
    (enrolled : ∀ op ∈ ops, op.Enrolled s) :
    Fares s (fun p r => p.Serves r ∨ ∃ op ∈ ops, op.AsksSingly s p r) d
      (Operation.performAll s d ops) := by
  induction ops generalizing d with
  | nil => exact ⟨staffed, .refl⟩
  | cons op ops ih =>
    have first := staffed.perform modes (enrolled op List.mem_cons_self)
    have rest := ih first.staffed fun o later => enrolled o (List.mem_cons_of_mem _ later)
    refine ⟨rest.staffed, (first.deals.mono ?_).trans (rest.deals.mono ?_)⟩
    · intro p r asks
      exact asks.imp_right fun singly => ⟨op, List.mem_cons_self, singly⟩
    · intro p r asks
      rcases asks with serves | ⟨o, later, singly⟩
      · exact .inl serves
      · exact .inr ⟨o, List.mem_cons_of_mem _ later, singly⟩

end Staffed

end Desk

namespace Operation

variable {s : Setup ω} {d : Desk ω} {op : Operation ω}

theorem reaches_perform (enrolled : op.Enrolled s) : ∃ e floor, Desk.Reaches s d e ∧
    floor.listings = e.floor.listings ∧ op.perform s d = e.onFloor floor := by
  have calls {e : Desk ω} (reached : Desk.Reaches s d e) {floor : Floor ω}
      (same : floor.listings = e.floor.listings) : ∃ e' floor', Desk.Reaches s d e' ∧
        floor'.listings = e'.floor.listings ∧ e.onFloor floor = e'.onFloor floor' :=
    ⟨e, floor, reached, same, rfl⟩
  have moves {e : Desk ω} (reached : Desk.Reaches s d e) : ∃ e' floor', Desk.Reaches s d e' ∧
      floor'.listings = e'.floor.listings ∧ e = e'.onFloor floor' := calls reached rfl
  have coverage (pair : AssetPair) (c : Capability) :=
    (Desk.reaches_coverage (s := s) (d := d) pair c).1
  cases op with
  | move a =>
    simp only [perform]
    cases step : Desk.step s d a with
    | none => exact moves .refl
    | some e => exact moves (.single ⟨a, enrolled, step⟩)
  | prices keys => exact moves (Desk.reaches_prices d keys)
  | rush visits probeAfter => exact moves (Rush.reaches_rush d visits probeAfter)
  | discover pair network => exact moves (Desk.reaches_discover d pair network)
  | allPairs => exact moves (Desk.reaches_survey d fun _ => Discovery.mem_of_direct)
  | providersForPair pair => exact moves (Desk.reaches_survey d fun _ => Discovery.mem_of_direct)
  | pairsOnNetwork network =>
    simp only [perform, Desk.pairsOnNetwork]
    split
    · exact moves .refl
    · next p preferred =>
      refine moves (Desk.reaches_survey d fun q member => ?_)
      cases List.mem_singleton.mp member
      exact Discovery.mem_of_preferred? preferred
  | quotesForPair pair =>
    simp only [perform, Desk.quotesForPair]
    have reached := coverage pair .pricing
    generalize Desk.coverage s d pair .pricing = x at reached ⊢
    obtain ⟨_ | covered, e⟩ := x
    · exact moves reached
    · exact calls reached rfl
  | volumesForPair pair =>
    simp only [perform, Desk.volumesForPair]
    have reached := coverage pair .volume
    generalize Desk.coverage s d pair .volume = x at reached ⊢
    obtain ⟨_ | covered, e⟩ := x
    · exact moves reached
    · exact calls reached rfl
  | orderBook network pair depth =>
    simp only [perform, Desk.orderBook]
    split
    · exact moves .refl
    split
    · exact moves .refl
    · exact calls .refl rfl
  | quotesOnNetwork network requested =>
    simp only [perform, Desk.quotesOnNetwork]
    split
    · exact moves .refl
    split
    · exact moves .refl
    split
    · exact calls .refl rfl
    · cases requested with
      | all => exact moves .refl
      | pairs ps => exact calls .refl rfl

end Operation

end PriceDesk
