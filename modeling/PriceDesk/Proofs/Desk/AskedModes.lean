import PriceDesk.Proofs.Desk.Operations

namespace PriceDesk

variable {ω α : Type}

structure Ask where
  provider : String
  requested : RequestedPairs
deriving DecidableEq

/-- Whether a world keeps a record of every question for prices, the latest first. -/
structure Records (s : Setup ω) (record : ω → List Ask) : Prop where
  pricing : ∀ p ∈ s.registry.providers, ∀ pricing, p.pricing = some pricing →
    ∀ r patience now w, record (pricing.call r patience now w).2 = ⟨p.id, r⟩ :: record w
  listing : ∀ p ∈ s.registry.providers, ∀ call, p.listing = some call →
    ∀ patience now w, record (call patience now w).2 = record w
  orderBook : ∀ p ∈ s.registry.providers, ∀ ask, p.orderBook = some ask →
    ∀ pair depth patience now w, record (ask pair depth patience now w).2 = record w
  volumes : ∀ p ∈ s.registry.providers, ∀ volumes, p.volumes = some volumes →
    ∀ r patience now w, record (volumes.call r patience now w).2 = record w

theorem Records.of_deals {s : Setup ω} {record : ω → List Ask} (records : Records s record)
    {may : Provider ω → RequestedPairs → Prop} {w w' : ω} (deals : Deals s may w w') :
    ∀ ask ∈ record w', ask ∈ record w ∨
      ∃ p ∈ s.registry.providers, p.id = ask.provider ∧ may p ask.requested := by
  induction deals with
  | refl => exact fun ask member => .inl member
  | tail _ deal ih =>
    intro ask member
    cases deal with
    | listed known lists patience now =>
      rw [records.listing _ known _ lists] at member
      exact ih ask member
    | quoted known quotes fits patience now =>
      rw [records.pricing _ known _ quotes] at member
      rcases List.mem_cons.mp member with rfl | before
      · exact .inr ⟨_, known, rfl, fits⟩
      · exact ih ask before
    | booked known shows pair depth patience now =>
      rw [records.orderBook _ known _ shows] at member
      exact ih ask member
    | traded known tells r patience now =>
      rw [records.volumes _ known _ tells] at member
      exact ih ask member

/-- Providers that have a mode are asked for prices in a mode that they declare, unless they are
asked singly for the pairs of a request that they cannot serve. -/
theorem prices_are_asked_in_declared_modes {s : Setup ω} {record : ω → List Ask}
    (modes : s.HasModes) (records : Records s record) {ops : List (Operation ω)}
    (enrolled : ∀ op ∈ ops, op.Enrolled s) (floor : Floor ω) :
    ∀ ask ∈ record (Operation.performAll s { floor } ops).floor.world,
      ask ∈ record floor.world ∨
        ∃ p ∈ s.registry.providers, p.id = ask.provider ∧
          (p.Serves ask.requested ∨ ∃ op ∈ ops, op.AsksSingly s p ask.requested) :=
  records.of_deals ((Desk.Staffed.empty s floor).performAll modes enrolled).deals

def Call.beside {σ : Type} (call : Call ω α) : Call (σ × ω) α :=
  fun patience now w =>
    let (reply, world) := call patience now w.2
    (reply, (w.1, world))

def Provider.recorded (p : Provider ω) : Provider (List Ask × ω) where
  id := p.id
  network := p.network
  title := p.title
  priority := p.priority
  direct := p.direct
  disabled := p.disabled
  mustWait tier now w := p.mustWait tier now w.2
  listing := p.listing.map Call.beside
  pricing := p.pricing.map fun pricing =>
    { features := pricing.features
      call := fun r patience now w =>
        (pricing.call r).beside patience now (⟨p.id, r⟩ :: w.1, w.2) }
  orderBook := p.orderBook.map fun ask pair depth => (ask pair depth).beside
  volumes := p.volumes.map fun volumes =>
    { features := volumes.features, call := fun r => (volumes.call r).beside }

def Setup.recorded (s : Setup ω) : Setup (List Ask × ω) where
  registry :=
    { providers := s.registry.providers.map Provider.recorded
      ordered := s.registry.ordered.map _ fun _ _ noWorse => noWorse
      distinct := s.registry.distinct.map _ fun _ _ differs => differs }
  options := s.options
  listingTimeout := s.listingTimeout
  quoteTimeout := s.quoteTimeout
  orderBookCap := s.orderBookCap

theorem Setup.records_recorded (s : Setup ω) : Records s.recorded Prod.fst where
  pricing p member pricing quotes r patience now w := by
    obtain ⟨p, _, rfl⟩ := List.mem_map.mp member
    obtain ⟨pricing, _, rfl⟩ := Option.map_eq_some_iff.mp quotes
    rfl
  listing p member call lists patience now w := by
    obtain ⟨p, _, rfl⟩ := List.mem_map.mp member
    obtain ⟨call, _, rfl⟩ := Option.map_eq_some_iff.mp lists
    rfl
  orderBook p member ask shows pair depth patience now w := by
    obtain ⟨p, _, rfl⟩ := List.mem_map.mp member
    obtain ⟨ask, _, rfl⟩ := Option.map_eq_some_iff.mp shows
    rfl
  volumes p member volumes tells r patience now w := by
    obtain ⟨p, _, rfl⟩ := List.mem_map.mp member
    obtain ⟨volumes, _, rfl⟩ := Option.map_eq_some_iff.mp tells
    rfl

theorem Setup.HasModes.recorded {s : Setup ω} (modes : s.HasModes) : s.recorded.HasModes := by
  intro p member pricing quotes
  obtain ⟨p, known, rfl⟩ := List.mem_map.mp member
  obtain ⟨original, prices, rfl⟩ := Option.map_eq_some_iff.mp quotes
  exact modes p known original prices

def wholesaler : Provider Unit where
  id := "wholesale"
  network := ⟨"Wholesale"⟩
  title := "Wholesale"
  listing := some fun _ _ world => (.now (.ok (.ofList [.of "BTC" "USD"])), world)
  pricing := some
    { features := { single := false, canReturnAll := true }
      call := fun _ _ _ world =>
        (.now (.ok
          { quotes := [{ network := ⟨"Wholesale"⟩, pair := .of "BTC" "USD", price := .one }] }),
          world) }

def wholesaleSetup : Setup (List Ask × Unit) := Setup.recorded
  { registry := ⟨[wholesaler], List.pairwise_singleton _ _, List.pairwise_singleton _ _⟩
    listingTimeout := 1
    quoteTimeout := 1 }

def wholesaleFloor : Floor (List Ask × Unit) := { world := ([], ()), listings := { ttl := 1 } }

def wholesaleOrders : List (Operation (List Ask × Unit)) :=
  [.move (.request { pair := .of "BTC" "USD" }), .move (.lookup (.flight 0) 0),
   .move (.lookup (.flight 0) 0), .move (.lookup (.flight 0) 0), .move (.advance 0),
   .move (.advance 0),
   .quotesOnNetwork ⟨"Wholesale"⟩ (.pairs [.of "BTC" "USD", .of "ETH" "USD"])]

theorem wholesale_modes : wholesaleSetup.HasModes := by
  refine Setup.HasModes.recorded fun p member pricing quotes => ?_
  cases List.mem_singleton.mp member
  cases quotes
  exact .inr (.inr rfl)

def wholesaleRecord : List Ask :=
  (Operation.performAll wholesaleSetup { floor := wholesaleFloor } wholesaleOrders).floor.world.1

/-- The provider is asked for single pairs, which it does not quote. -/
theorem wholesaler_is_asked_singly :
    wholesaleSetup.HasModes ∧ (∀ op ∈ wholesaleOrders, op.Enrolled wholesaleSetup) ∧
      wholesaleRecord = [⟨"wholesale", .single (.of "ETH" "USD")⟩,
        ⟨"wholesale", .single (.of "BTC" "USD")⟩, ⟨"wholesale", .all⟩] ∧
      ∀ p ∈ wholesaleSetup.registry.providers, ¬ p.Serves (.single (.of "ETH" "USD")) := by
  refine ⟨wholesale_modes, by simp [wholesaleOrders, Operation.Enrolled, Action.Enrolled], rfl, ?_⟩
  intro p member serves
  cases List.mem_singleton.mp member
  obtain ⟨pricing, quotes, supported⟩ := serves
  cases quotes
  cases supported

/-- Each time it was asked as it declares, or for one of several pairs. -/
theorem wholesaler_is_asked_in_declared_modes :
    wholesaleSetup.HasModes ∧ Records wholesaleSetup Prod.fst ∧
      ∀ ask ∈ wholesaleRecord, ∃ p ∈ wholesaleSetup.registry.providers, p.id = ask.provider ∧
        (p.Serves ask.requested ∨
          ∃ op ∈ wholesaleOrders, op.AsksSingly wholesaleSetup p ask.requested) := by
  have records : Records wholesaleSetup Prod.fst := Setup.records_recorded _
  have enrolled : ∀ op ∈ wholesaleOrders, op.Enrolled wholesaleSetup := by
    simp [wholesaleOrders, Operation.Enrolled, Action.Enrolled]
  refine ⟨wholesale_modes, records, fun ask member => ?_⟩
  rcases prices_are_asked_in_declared_modes wholesale_modes records enrolled wholesaleFloor
    ask member with before | asked
  · cases before
  · exact asked

end PriceDesk
