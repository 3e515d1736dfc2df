import PriceDesk.Config.Configuration
import PriceDesk.Proofs.Desk.Delivery

namespace PriceDesk

variable {ω : Type}

def MarketError.isGap : MarketError → Bool
  | .noProvidersAvailable | .pairNotSupported _ | .noProviderForNetwork _ _ => true
  | _ => false

def Registry.LeavesGaps (registry : Registry ω) : Prop :=
  ∀ p ∈ registry.providers, ∀ pricing, p.pricing = some pricing →
    ∀ requested patience now world failure,
      (pricing.call requested patience now world).1.outcome = .error failure →
        failure.isGap = false

theorem Move.Finds.of_beq {s : Setup ω} {m : Move ω} {id : Nat} {k l : RequestKey}
    {found : Option Match} (finds : m.Finds s id k found) (same : (k == l) = true) :
    m.Finds s id l found := by
  obtain ⟨action, f, survey, listings, diagnostics, flight, key, rest⟩ := finds
  exact ⟨action, f, survey, listings, diagnostics, flight, BEq.trans key same, rest⟩

def Stage.Candid (s : Setup ω) (moves : List (Move ω)) (id : Nat) (key : RequestKey) :
    Stage ω → Prop
  | .choosing _ queue failure => queue = [] → failure.isGap = false
  | .done result => ∀ failure, result = .error failure → failure.isGap = true →
      failure = Desk.notFound s key.pair ∧ ∃ m ∈ moves, m.Finds s id key none
  | .surveying _ | .asking _ _ _ _ | .combining _ _ => True

theorem Stage.Candid.mono {s : Setup ω} {moves : List (Move ω)} {id : Nat} {key : RequestKey}
    {stage : Stage ω} (candid : stage.Candid s moves id key) (m : Move ω) :
    stage.Candid s (moves ++ [m]) id key := by
  cases stage with
  | done result =>
    intro failure failed gap
    obtain ⟨same, n, member, finds⟩ := candid failure failed gap
    exact ⟨same, n, List.mem_append_left _ member, finds⟩
  | choosing leg queue failure => exact candid
  | surveying _ | asking _ _ _ _ | combining _ _ => exact trivial

theorem Pending.failure_of_poll {ε α : Type} {call : Pending ε α} {now : Instant} {failure : ε}
    (answer : call.poll now = some (.error failure)) :
    call.outcome = .error failure ∨ ∃ t, call.cutoff = some (t, failure) := by
  unfold poll at answer
  split at answer
  · exact .inl (Option.some.inj answer)
  · obtain ⟨⟨t, failure'⟩, cutoff, passed⟩ := Option.bind_eq_some_iff.mp answer
    dsimp only at passed
    split at passed <;> cases passed
    exact .inr ⟨t, cutoff⟩

theorem Call.isGap_of_invoke {α : Type} {call : Call ω α} {provider method : String}
    {timeout : Duration} {start now : Instant} {world : ω}
    (leaves : ∀ failure, (call (some timeout) start world).1.outcome = .error failure →
      failure.isGap = false) {failure : MarketError}
    (answer : (call.invoke provider method timeout start world).1.poll now =
      some (.error failure)) : failure.isGap = false := by
  rcases Pending.failure_of_poll answer with failed | ⟨t, cutoff⟩
  · simp only [invoke] at failed
    -- A timeout that the provider reports stays one, whatever time it names.
    split at failed
    · cases failed
      rfl
    · exact leaves failure failed
  · cases cutoff
    rfl

namespace Desk

variable {s : Setup ω} {d e : Desk ω} {moves : List (Move ω)} {key : RequestKey}

theorem isGap_of_priceOf {leg : Leg} {provider : String} {quotes : Quotes} {failure : MarketError}
    (failed : priceOf leg provider quotes = .error failure) : failure.isGap = false := by
  unfold priceOf at failed
  split at failed
  · cases failed
    rfl
  · rename_i quote _
    cases direction : leg.isReversed with
    | false => simp [direction, bind, Except.bind, pure, Except.pure] at failed
    | true =>
      cases inverse : quote.price.reciprocal? with
      | some price =>
        simp [direction, Quote.reversed, inverse, bind, Except.bind, pure, Except.pure] at failed
      | none =>
        simp only [direction, Quote.reversed, inverse, if_true] at failed
        cases failed
        rfl

theorem isGap_of_combine {pair : AssetPair} {first second : LatestPrice} {failure : MarketError}
    (failed : combine pair first second = .error failure) : failure.isGap = false := by
  unfold combine at failed
  split at failed
  · cases failed
  · cases failed
    rfl

theorem isGap_of_answer (leaves : s.registry.LeavesGaps) {f : Flight ω} {leg : Leg}
    {p : Provider ω} {call : Pending MarketError Quotes} {queue : List (Provider ω)}
    (sound : f.stage.Sound s moves d f.key) (stage : f.stage = .asking leg p call queue)
    {now : Instant} {outcome : Except MarketError Quotes} (answer : call.poll now = some outcome)
    {failure : MarketError} (failed : outcome.bind (priceOf leg p.id) = .error failure) :
    failure.isGap = false := by
  rw [stage] at sound
  obtain ⟨_, _, queued, m, _, pricing, requested, quotes, called⟩ := sound
  cases outcome with
  | ok quotes => exact isGap_of_priceOf failed
  | error refusal =>
    cases failed
    have member := (Discovery.mem_having.mp (List.mem_filter.mp (queued p List.mem_cons_self)).1).1
    rw [← show _ = call from congrArg Prod.fst called] at answer
    exact Call.isGap_of_invoke (leaves p member pricing quotes requested _ _ _) answer

theorem askOrder_of_found (requires : s.options.requirePricing = true)
    {listings : List (Except MarketError Listing)} {m : Match} {diagnostics : Diagnostics}
    (found : Discovery.conclude s.options s.registry key.pair key.network listings =
      (some m, diagnostics)) {leg : Leg} (member : leg ∈ m.legs) :
    opening.askOrder s leg ≠ [] := by
  obtain ⟨p, l, considered, _, network, _⟩ := (Discovery.conclude_rests found).1.listed leg member
  obtain ⟨q, registered, quotes, same⟩ := considered.isPriced requires
  have pricing : q ∈ s.registry.having .pricing := Discovery.mem_having.mpr ⟨registered, quotes⟩
  rw [← network] at same
  exact List.ne_nil_of_mem (mem_askOrder (List.mem_filter.mpr ⟨pricing, same⟩))

theorem candid_opening {id : Nat} {leg : Leg} (somebody : opening.askOrder s leg ≠ []) :
    (opening s key (some leg)).Candid s moves id key :=
  fun nobody => absurd nobody somebody

theorem Run.isLeg_of_finds (run : Run s moves d) {m : Move ω} (member : m ∈ moves) {id : Nat}
    {found : Option Match} (finds : m.Finds s id key found) : key.isLeg = false := by
  obtain ⟨_, f, survey, listings, diagnostics, flight, same, stage, _⟩ := finds
  obtain ⟨earlier, run', _⟩ := run.before member
  refine Bool.eq_false_iff.mpr fun part => ?_
  rw [RequestKey.isLeg, ← (RequestKey.beq_iff.mp same).2.1] at part
  have ended := run'.leg_unsearched (mem_of_flight? flight) part
  rw [stage] at ended
  cases ended

theorem Run.isGap_of_leg (run : Run s moves d)
    (candid : ∀ f ∈ d.flights, f.stage.Candid s moves f.id f.key) {g : Flight ω}
    (member : g ∈ d.flights) (part : g.key.isLeg = true) {failure : MarketError}
    (done : g.stage = .done (.error failure)) : failure.isGap = false := by
  refine Bool.eq_false_iff.mpr fun gap => ?_
  have stage := candid g member
  rw [done] at stage
  obtain ⟨_, m, there, finds⟩ := stage failure rfl gap
  have whole := run.isLeg_of_finds there finds
  rw [part] at whole
  cases whole

theorem Run.candid_of_ending (run : Run s moves d) (leaves : s.registry.LeavesGaps)
    (candid : ∀ f ∈ d.flights, f.stage.Candid s moves f.id f.key) {f : Flight ω} {r : PriceResult}
    (flight : d.flight? f.id = some f) (ending : Ending s d f r) :
    (Stage.done r : Stage ω).Candid s (moves ++ [⟨d, .advance f.id, e⟩]) f.id f.key := by
  have member := mem_of_flight? flight
  intro failure failed gap
  -- Only a search that finds nothing ends so.
  have never : failure.isGap = false → False := fun other => Bool.noConfusion (gap.symm.trans other)
  cases ending with
  | unfound stage loaded found =>
    cases failed
    exact ⟨rfl, _, List.mem_append_right _ List.mem_cons_self, rfl, f, _, _, _, flight, BEq.rfl,
      stage, loaded, found⟩
  | exhausted stage =>
    cases failed
    have last := candid f member
    rw [stage] at last
    exact (never (last rfl)).elim
  | priced stage answer priced => cases failed
  | refused stage answer refused final =>
    cases failed
    exact (never (isGap_of_answer leaves (run.sound f member) stage answer refused)).elim
  | @combined i j g h first second stage one oneDone two twoDone =>
    have isLeg : ∀ {k : Nat} {g : Flight ω}, k ∈ f.stage.legs → d.flight? k = some g →
        g.key.isLeg = true := by
      intro k g leg found
      cases id_of_flight? found
      exact run.legs_isLeg member (mem_of_flight? found) leg
    cases first with
    | error refusal =>
      cases failed
      have part := isLeg (by rw [stage]; exact List.mem_cons_self) one
      exact (never (run.isGap_of_leg candid (mem_of_flight? one) part oneDone)).elim
    | ok first =>
      cases second with
      | error refusal =>
        cases failed
        have part := isLeg (by rw [stage]; exact List.mem_cons_of_mem _ List.mem_cons_self) two
        exact (never (run.isGap_of_leg candid (mem_of_flight? two) part twoDone)).elim
      | ok second => exact (never (isGap_of_combine failed)).elim

theorem candid_of_onward (requires : s.options.requirePricing = true)
    (leaves : s.registry.LeavesGaps) {f : Flight ω} (sound : f.stage.Sound s moves d f.key)
    {stage : Stage ω} {world : ω} (onward : Onward s d f stage world) (moves' : List (Move ω)) :
    stage.Candid s moves' f.id f.key := by
  cases onward with
  | found now loaded found =>
    exact candid_opening (askOrder_of_found requires found List.mem_cons_self)
  | @skipped leg p queue failure now mute =>
    rw [now] at sound
    have quotes := (Discovery.mem_having.mp (List.mem_filter.mp (sound.2.2 p List.mem_cons_self)).1).2
    rw [Provider.has, Capabilities.supports, Provider.capabilities, mute] at quotes
    cases quotes
  | asked now quotes called => trivial
  | retried now answer failed mendable =>
    exact fun _ => isGap_of_answer leaves sound now answer failed

/-- Whatever moves come, a flight does not tell that there is nobody to ask, but where its search
has found nobody. -/
theorem Run.candid (run : Run s moves d) (requires : s.options.requirePricing = true)
    (leaves : s.registry.LeavesGaps) : ∀ f ∈ d.flights, f.stage.Candid s moves f.id f.key := by
  induction run with
  | start floor => simp
  | @move moves d e a run whole step candid =>
    intro g there
    cases became run.coherent (transition_of_step step) there with
    | kept was => exact (candid g was).mono _
    | asked number request stage =>
      rw [stage]
      trivial
    | leg number flight now loaded found opens =>
      rcases opens with ⟨key, stage⟩ | ⟨key, stage⟩
      · rw [stage]
        exact candid_opening (askOrder_of_found requires found List.mem_cons_self)
      · rw [stage]
        exact candid_opening
          (askOrder_of_found requires found (List.mem_cons_of_mem _ List.mem_cons_self))
    | looked flight now restaged =>
      subst restaged
      trivial
    | ended flight action ending restaged =>
      subst restaged action
      exact run.candid_of_ending leaves candid flight ending
    | wentOn flight action onward restaged =>
      subst restaged
      exact candid_of_onward requires leaves (run.sound _ (mem_of_flight? flight)) onward _
    | split flight action now loaded found restaged =>
      subst restaged
      trivial

theorem Run.finds_of_whole (run : Run s moves d) {f : Flight ω} (member : f ∈ d.flights)
    (whole : f.key.role = .whole) (ended : f.stage.survey? = none) :
    ∃ m ∈ moves, ∃ found, m.Finds s f.id f.key found := by
  induction run generalizing f with
  | start floor => cases member
  | @move moves d e a run _ step ih =>
    have earlier : ∀ {f : Flight ω}, f ∈ d.flights → f.key.role = .whole →
        f.stage.survey? = none →
          ∃ m ∈ moves ++ [⟨d, a, e⟩], ∃ found, m.Finds s f.id f.key found := by
      intro f was whole ended
      obtain ⟨m, there, finds⟩ := ih was whole ended
      exact ⟨m, List.mem_append_left _ there, finds⟩
    have now : ∀ {f : Flight ω} {survey : Survey ω} {listings : List (Except MarketError Listing)}
        {found : Option Match} {diagnostics : Diagnostics}, d.flight? f.id = some f →
        a = .advance f.id → f.stage = .surveying survey → survey.results? = some listings →
        Discovery.conclude s.options s.registry f.key.pair f.key.network listings =
          (found, diagnostics) →
        ∃ m ∈ moves ++ [⟨d, a, e⟩], ∃ found, m.Finds s f.id f.key found := by
      intro f survey listings found diagnostics flight action stage loaded concluded
      exact ⟨_, List.mem_append_right _ List.mem_cons_self, found, action, f, survey, listings,
        diagnostics, flight, BEq.rfl, stage, loaded, concluded⟩
    cases became run.coherent (transition_of_step step) member with
    | kept was => exact earlier was whole ended
    | asked number request stage =>
      rw [stage] at ended
      cases ended
    | leg number flight stage loaded found opens =>
      rcases opens with ⟨key, _⟩ | ⟨key, _⟩ <;> rw [key] at whole <;> cases whole
    | looked flight stage restaged =>
      subst restaged
      cases ended
    | @ended g r flight action ending restaged =>
      subst restaged
      cases ending with
      | unfound stage loaded concluded => exact now (f := g) flight action stage loaded concluded
      | exhausted stage | priced stage _ _ | refused stage _ _ _ | combined stage _ _ _ _ =>
        exact earlier (f := g) (mem_of_flight? flight) whole (by rw [stage]; rfl)
    | @wentOn g stage world flight action onward restaged =>
      subst restaged
      cases onward with
      | found stage loaded concluded => exact now (f := g) flight action stage loaded concluded
      | skipped stage _ | asked stage _ _ | retried stage _ _ _ =>
        exact earlier (f := g) (mem_of_flight? flight) whole (by rw [stage]; rfl)
    | @split g survey listings first second diagnostics i j flight action stage loaded concluded
        restaged =>
      subst restaged
      exact now (f := g) flight action stage loaded concluded

theorem completes_of_finds {m : Move ω} (h : Coherent m.before)
    (t : Transition s m.before m.action m.after) {id : Nat} (finds : m.Finds s id key none) :
    ∃ f, f.id = id ∧ m.Completes f (.error (notFound s key.pair)) := by
  obtain ⟨before, action, after⟩ := m
  obtain ⟨advances, f, survey, listings, diagnostics, flight, same, stage, loaded, concluded⟩ :=
    finds
  have going : f.stage.result? = none := by rw [stage]; rfl
  have pair : f.key.pair = key.pair := (RequestKey.beq_iff.mp same).1
  dsimp only at advances t h flight
  subst advances
  have member := mem_of_flight? flight
  cases dispatched_of_search t flight stage loaded concluded with
  | unfound =>
    refine ⟨f, id_of_flight? flight, member, going, _, h.restaged member (.done _), rfl, ?_⟩
    rw [pair]

theorem found_eq_none_of_mute (requires : s.options.requirePricing = true)
    (mute : s.registry.having .pricing = []) {listings : List (Except MarketError Listing)}
    {found : Option Match} {diagnostics : Diagnostics}
    (concluded : Discovery.conclude s.options s.registry key.pair key.network listings =
      (found, diagnostics)) : found = none := by
  cases found with
  | none => rfl
  | some m =>
    obtain ⟨p, l, considered, _⟩ :=
      (Discovery.conclude_rests concluded).1.listed m.first List.mem_cons_self
    obtain ⟨q, registered, quotes, _⟩ := considered.isPriced requires
    have pricing : q ∈ s.registry.having .pricing := Discovery.mem_having.mpr ⟨registered, quotes⟩
    rw [mute] at pricing
    cases pricing

end Desk

structure Tells (s : Setup ω) (moves : List (Move ω)) (id : Nat) (key : RequestKey)
    (r : PriceResult) : Prop where
  searched : ∃ m ∈ moves, ∃ found, m.Finds s id key found
  noProviders : r = .error .noProvidersAvailable ↔ s.registry.having .pricing = []
  notSupported : r = .error (.pairNotSupported key.pair.render) ↔
    s.registry.having .pricing ≠ [] ∧ ∃ m ∈ moves, m.Finds s id key none
  ownPair : ∀ pair, r = .error (.pairNotSupported pair) → pair = key.pair.render
  onNetwork : ∀ network capability, r ≠ .error (.noProviderForNetwork network capability)

structure Refuses (s : Setup ω) (moves : List (Move ω)) (d : Desk ω) (m : Move ω)
    (key : RequestKey) : Prop where
  served : (∀ n ∈ moves, n.IsPatient) →
    ∃ moves' e r, Serves s moves d moves' e ∧ m.Given moves' r
  given : ∀ r, m.Given moves r → ∃ id,
    m.after.caller? m.before.nextCaller = some (.awaiting id) ∧ Tells s moves id key r
  asks : ∀ f ∈ d.flights, ∀ leg queue failure, f.stage = .choosing leg queue failure →
    (∀ p ∈ queue, p.pricing.isSome = true) ∧ (failure.isGap = true → queue ≠ [])
  onNetwork : ∀ f ∈ d.flights, ∀ network capability,
    f.stage ≠ .done (.error (.noProviderForNetwork network capability))
  legs : ∀ f ∈ d.flights, f.key.isLeg = true → ∀ failure, f.stage = .done (.error failure) →
    failure.isGap = false

namespace Desk

variable {s : Setup ω} {d e : Desk ω} {moves : List (Move ω)} {key : RequestKey}

theorem Run.tells (run : Run s moves d) (requires : s.options.requirePricing = true)
    (leaves : s.registry.LeavesGaps) {m : Move ω} (member : m ∈ moves)
    (request : m.action = .request key) {r : PriceResult} (given : m.Given moves r) :
    ∃ id, m.after.caller? m.before.nextCaller = some (.awaiting id) ∧ Tells s moves id key r := by
  obtain ⟨earlier, later, e, f, same, run', _, among, waits, there, stage⟩ :=
    run.collected member request given
  have subset : ∀ n ∈ earlier, n ∈ moves := fun n sooner => same ▸ List.mem_append_left _ sooner
  have keyed : (f.key == key) = true := (run'.asked_for among request waits).2 f there rfl
  have pair : f.key.pair = key.pair := (RequestKey.beq_iff.mp keyed).1
  have whole : key.role = .whole := by
    have isPublic := (run.move_of_mem member).2.1
    rw [request] at isPublic
    exact isPublic
  obtain ⟨n, sooner, found, finds⟩ := run'.finds_of_whole there
    ((RequestKey.beq_iff.mp keyed).2.1.trans whole) (by rw [stage]; rfl)
  -- What tells that there is nobody to ask comes from a search that found nothing,
  have candid : ∀ failure, r = .error failure → failure.isGap = true →
      failure = notFound s key.pair ∧ ∃ n ∈ moves, n.Finds s f.id key none := by
    intro failure failed gap
    have candid := run'.candid requires leaves f there
    rw [stage] at candid
    obtain ⟨told, n, sooner, finds⟩ := candid failure failed gap
    exact ⟨pair ▸ told, n, subset n sooner, finds.of_beq keyed⟩
  -- and such a search ends the flight.
  have ends : ∀ n ∈ moves, n.Finds s f.id key none → r = .error (notFound s key.pair) := by
    intro n among finds
    obtain ⟨h, _, t⟩ := run.move_of_mem among
    obtain ⟨g, number, completes⟩ := completes_of_finds h t finds
    obtain ⟨n', sooner', g', number', _, completes'⟩ := run'.completed_of_done there stage
    exact run.completes_once (subset n' sooner') among completes' completes
      (number'.trans number.symm)
  refine ⟨f.id, run'.waits_since among request waits, ?_⟩
  constructor
  case searched => exact ⟨n, subset n sooner, found, finds.of_beq keyed⟩
  case noProviders =>
    constructor
    · intro told
      have same := (candid _ told rfl).1
      unfold notFound at same
      split at same
      · rename_i nobody
        exact List.isEmpty_iff.mp nobody
      · cases same
    · intro mute
      have search := finds.of_beq keyed
      obtain ⟨_, g, survey, listings, diagnostics, _, _, _, _, concluded⟩ := finds
      cases found_eq_none_of_mute requires mute concluded
      rw [ends n (subset n sooner) search, notFound, mute]
      rfl
  case notSupported =>
    constructor
    · intro told
      obtain ⟨same, nothing⟩ := candid _ told rfl
      refine ⟨fun mute => ?_, nothing⟩
      rw [notFound, mute] at same
      cases same
    · intro nothing
      obtain ⟨somebody, n, among, finds⟩ := nothing
      rw [ends n among finds, notFound, if_neg (by simpa using somebody)]
  case ownPair =>
    intro text told
    have same := (candid _ told rfl).1
    unfold notFound at same
    split at same <;> cases same
    rfl
  case onNetwork =>
    intro network capability told
    have same := (candid _ told rfl).1
    unfold notFound at same
    split at same <;> cases same

/-- A desk that discovers as its settings say tells of nobody to ask only where its registry has
nobody who quotes prices, or its search finds no match. -/
theorem only_searches_tell_of_nobody {settings : Settings} (built : s.options = settings.discovery)
    (leaves : s.registry.LeavesGaps) (run : Run s moves d) {ttl : Duration}
    (fresh : (opened moves d).floor.listings = { ttl }) {m : Move ω} (member : m ∈ moves)
    (request : m.action = .request key) : Refuses s moves d m key := by
  have requires : s.options.requirePricing = true := by
    rw [built]
    rfl
  have candid := run.candid requires leaves
  constructor
  case served => exact fun patient => run.served fresh patient member request
  case given => exact fun r given => run.tells requires leaves member request given
  case asks =>
    intro f there leg queue failure stage
    have sound := run.sound f there
    have candid := candid f there
    rw [stage] at sound candid
    constructor
    · intro p queued
      exact (Discovery.mem_having.mp (List.mem_filter.mp (sound.2.2 p queued)).1).2
    · intro gap nobody
      exact Bool.noConfusion (gap.symm.trans (candid nobody))
  case onNetwork =>
    intro f there network capability stage
    have candid := candid f there
    rw [stage] at candid
    have same := (candid _ rfl rfl).1
    unfold notFound at same
    split at same <;> cases same
  case legs => exact fun f there part failure => run.isGap_of_leg candid there part

/-- Nobody lists ether, and whoever asks for it is told so. -/
theorem prompt_ether_is_refused : ∃ moves d m,
    (promptSetup [.of "BTC" "USD"]).options = Settings.discovery {} ∧
    (promptSetup [.of "BTC" "USD"]).registry.LeavesGaps ∧
    Run (promptSetup [.of "BTC" "USD"]) moves d ∧
    (opened moves d).floor.listings = { ttl := 1 } ∧
    m.Given moves (.error (.pairNotSupported "ETH_USD")) ∧
    Refuses (promptSetup [.of "BTC" "USD"]) moves d m { pair := .of "ETH" "USD" } := by
  have run := Run.start (s := promptSetup [.of "BTC" "USD"]) promptFloor
    |>.move (a := .request { pair := .of "ETH" "USD" }) rfl rfl
    |>.move (a := .lookup (.flight 0) 0) trivial rfl
    |>.move (a := .lookup (.flight 0) 0) trivial rfl
    |>.move (a := .lookup (.flight 0) 0) trivial rfl
    |>.move (a := .advance 0) trivial rfl
    |>.move (a := .collect 0) trivial rfl
  have built : (promptSetup [.of "BTC" "USD"]).options = Settings.discovery {} := rfl
  have leaves : (promptSetup [.of "BTC" "USD"]).registry.LeavesGaps := by
    intro p member pricing quotes requested patience now world failure failed
    cases List.mem_singleton.mp member
    cases quotes
    cases failed
  refine ⟨_, _, _, built, leaves, run, rfl, ?given,
    only_searches_tell_of_nobody built leaves run rfl (.head _) rfl⟩
  exact ⟨_, List.mem_append_right _ List.mem_cons_self, rfl, rfl⟩

end Desk

end PriceDesk
