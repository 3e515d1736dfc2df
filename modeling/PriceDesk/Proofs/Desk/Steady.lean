import PriceDesk.Proofs.Desk.Positions
import PriceDesk.Proofs.Discovery.Legs

namespace PriceDesk

variable {ω : Type}

/-- Whether a call comes to this outcome, however long its caller takes to look. -/
structure Pending.Brings {ε α : Type} (call : Pending ε α) (outcome : Except ε α) : Prop where
  outcome : call.outcome = outcome
  inTime : ∃ t, call.readyAt = some t ∧ ∀ cutoff, call.cutoff = some cutoff → t ≤ cutoff.1

theorem Pending.Brings.eq_of_poll {ε α : Type} {call : Pending ε α} {outcome r : Except ε α}
    (brings : call.Brings outcome) {now : Instant} (answer : call.poll now = some r) :
    r = outcome := by
  obtain ⟨t, ready, inTime⟩ := brings.inTime
  unfold poll at answer
  split at answer
  · cases answer
    exact brings.outcome
  · rename_i early
    obtain ⟨⟨last, failure⟩, some, passed⟩ := Option.bind_eq_some_iff.mp answer
    have late : last ≤ now := by
      apply Decidable.byContradiction
      intro soon
      simp [soon] at passed
    simp only [ready, Option.any, decide_eq_true_eq] at early
    exact absurd (Nat.le_trans (inTime _ some) late) early

/-- What providers answer when they are asked for their listing or for prices. -/
structure Answers (ω : Type) where
  listing : Provider ω → Except MarketError Listing
  quotes : Provider ω → RequestedPairs → Except MarketError Quotes

namespace Answers

variable (answers : Answers ω) (s : Setup ω)

/-- Whether the providers of the desk answer so, whenever they are asked, and in time. -/
structure Steady : Prop where
  listing : ∀ p ∈ s.registry.providers, ∀ call, p.listing = some call → ∀ now world,
    (call.invoke p.id "get_asset_pairs" s.listingTimeout now world).1.Brings (answers.listing p)
  quotes : ∀ p ∈ s.registry.providers, ∀ pricing, p.pricing = some pricing →
    ∀ requested now world, ((pricing.call requested).invoke p.id "get_pricing" s.quoteTimeout now
      world).1.Brings (answers.quotes p requested)

def Lists : Prop :=
  ∀ p ∈ s.registry.providers, ∀ call, p.listing = some call → ∀ now world later r,
    (call.invoke p.id "get_asset_pairs" s.listingTimeout now world).1.poll later = some r →
      r = answers.listing p

def ask (leg : Leg) : List (Provider ω) → MarketError → PriceResult
  | [], failure => .error failure
  | p :: queue, _ =>
    match p.pricing with
    | none => ask leg queue (.noProviderForNetwork p.network.name Capability.pricing.name)
    | some pricing =>
      match (answers.quotes p (Desk.singleOrAll pricing.features leg.providerPair)).bind
          (Desk.priceOf leg p.id) with
      | .ok price => .ok price
      | .error failure => if failure.isFinal then .error failure else ask leg queue failure

def legPrice (leg : Leg) : PriceResult :=
  answers.ask leg (Desk.opening.askOrder s leg) (.noProviderForNetwork leg.network.name "pricing")

def price (pair : AssetPair) : Option Match → PriceResult
  | none => .error (Desk.notFound s pair)
  | some (.plain leg) => answers.legPrice s leg
  | some (.converted first second) => do
    Desk.combine pair (← answers.legPrice s first) (← answers.legPrice s second)

def found (key : RequestKey) : Option Match :=
  Discovery.found s.options s.registry answers.listing key.pair key.network

def alone (key : RequestKey) : PriceResult := answers.price s key.pair (answers.found s key)

variable {answers s} in
theorem Steady.lists (steady : answers.Steady s) : answers.Lists s :=
  fun p member call has now world _ _ answer =>
    (steady.listing p member call has now world).eq_of_poll answer

theorem found_congr {k l : RequestKey} (same : (k == l) = true) :
    answers.found s k = answers.found s l := by
  obtain ⟨pair, _, network⟩ := RequestKey.beq_iff.mp same
  rw [found, found, pair, Discovery.found_congr network]

end Answers

def Lookup.ComesTo {ε ν : Type} (outcome : Except ε ν) : Lookup ε ν → Prop
  | .idle | .queued _ => True
  | .computing _ call => ∀ now r, call.poll now = some r → r = outcome
  | .done r => r = outcome

def Move.IsRegistered (s : Setup ω) (m : Move ω) : Prop :=
  ∀ ps, m.action = .survey ps → ∀ p ∈ ps, p ∈ s.registry.providers

namespace Survey

theorem results?_eq {survey : Survey ω} {listings : List (Except MarketError Listing)}
    {answer : Provider ω → Except MarketError Listing} (loaded : survey.results? = some listings)
    (comes : ∀ x ∈ survey, x.2.ComesTo (answer x.1)) :
    listings = (survey.map (·.1)).map answer := by
  induction survey generalizing listings with
  | nil =>
    cases loaded
    rfl
  | cons x survey ih =>
    obtain ⟨p, l⟩ := x
    simp only [results?, List.mapM_cons] at loaded
    obtain ⟨r, answered, others⟩ := Option.bind_eq_some_iff.mp loaded
    obtain ⟨rest, later, both⟩ := Option.bind_eq_some_iff.mp others
    cases both
    have first := comes _ List.mem_cons_self
    cases l <;> cases answered
    have same := ih later fun x member => comes x (List.mem_cons_of_mem _ member)
    rw [same]
    exact congrArg (· :: _) first

end Survey

theorem Discovery.listing_of_mem_sources (options : DiscoveryOptions) (registry : Registry ω)
    (pair : AssetPair) (network : Option Network) {p : Provider ω}
    (member : p ∈ sources options registry pair network) : p.listing.isSome = true := by
  unfold sources at member
  split at member
  · cases member
  · exact (mem_considered.mp (List.mem_filter.mp member).1).1.2

namespace Desk

variable {s : Setup ω} {answers : Answers ω} {d e : Desk ω} {moves : List (Move ω)}

structure Informed (s : Setup ω) (answers : Answers ω) (d : Desk ω) : Prop where
  entry : ∀ p ∈ s.registry.providers, ∀ x, (d.floor.listings.slot p.id).entry = some x →
    answers.listing p = .ok x.value
  visit : ∀ owner index p l, d.visit? owner index = some (p, l) → p ∈ s.registry.providers ∧
    (p.listing.isSome = true → l.ComesTo (answers.listing p))

theorem Informed.comesTo (informed : Informed s answers d) (fixed : answers.Lists s)
    {p : Provider ω} {call : Call ω Listing} (registered : p ∈ s.registry.providers)
    (lists : p.listing = some call) {l l' : Lookup MarketError Listing}
    {m' : Memo String Listing} {world : ω} (comes : l.ComesTo (answers.listing p))
    (moved : l.Moved (call.invoke p.id "get_asset_pairs" s.listingTimeout d.floor.clock.now) p.id
      d.floor.clock d.floor.listings d.floor.world l' m' world) :
    l'.ComesTo (answers.listing p) := by
  cases moved with
  | entered => trivial
  | recalled turn fresh =>
    obtain ⟨x, entry, _, rfl⟩ := Memo.fresh?_eq_some_iff.mp fresh
    exact (informed.entry p registered x entry).symm
  | began turn stale => exact fixed p registered call lists _ _
  | stored answer => exact comes _ _ answer
  | failed answer => exact comes _ _ answer

theorem Informed.move (informed : Informed s answers d) (fixed : answers.Lists s)
    (h : Coherent d) {a : Action ω} (t : Transition s d a e)
    (registered : Move.IsRegistered s ⟨d, a, e⟩) (lists : ∀ owner index p l,
      d.visit? owner index = some (p, l) → l.result? = none → p.listing.isSome = true) :
    Informed s answers e where
  entry := by
    intro p member x entry
    rcases (keeps t).entry p.id with same | ⟨owner, index, q, l, listing, here, own, stores, new⟩
    · exact informed.entry p member x (same.symm.trans entry)
    · rw [new] at entry
      cases entry
      obtain ⟨member', comes⟩ := informed.visit owner index q l here
      cases Registry.eq_of_id member' member own
      cases l with
      | computing ticket call =>
        have only := comes (lists owner index p _ here rfl)
        simp only [Lookup.stores?] at stores
        split at stores
        · rename_i answer
          cases stores
          exact (only _ _ answer).symm
        · cases stores
      | idle | queued _ | done _ => cases stores
  visit := by
    intro owner index p l there
    cases visited h t there with
    | stood here => exact informed.visit owner index p l here
    | came nobody new asked =>
      constructor
      · rcases asked with ⟨key, rfl, member⟩ | ⟨ps, rfl, member⟩
        · exact Discovery.sources_sublist.subset member
        · exact registered ps rfl p member
      · intro some
        obtain ⟨call, has⟩ := Option.isSome_iff_exists.mp some
        simp only [Survey.of, List.map_cons, has, List.map_nil] at new
        cases new
        trivial
    | moved action here has moved =>
      obtain ⟨member, comes⟩ := informed.visit _ _ _ _ here
      exact ⟨member, fun some => informed.comesTo fixed member has (comes some) moved⟩

theorem Informed.start {floor : Floor ω} {ttl : Duration} (fresh : floor.listings = { ttl }) :
    Informed s answers { floor } := by
  refine ⟨fun p member x entry => ?_, fun owner index p l there => by cases owner <;> cases there⟩
  rw [show ({ floor } : Desk ω).floor.listings = { ttl } from fresh] at entry
  cases entry

theorem Run.informed (run : Run s moves d) (steady : answers.Steady s) {ttl : Duration}
    (fresh : (opened moves d).floor.listings = { ttl })
    (registered : ∀ m ∈ moves, m.IsRegistered s) : Informed s answers d := by
  induction run with
  | start floor => exact .start fresh
  | move run whole step ih =>
    rw [opened_append] at fresh
    have earlier := ih fresh fun m member => registered m (List.mem_append_left _ member)
    exact earlier.move steady.lists run.coherent (transition_of_step step)
      (registered _ (List.mem_append_right _ List.mem_cons_self)) fun _ _ _ _ => run.lists

theorem found_of_conclude (informed : Informed s answers d) {f : Flight ω} {survey : Survey ω}
    {listings : List (Except MarketError Listing)} {m : Option Match} {diagnostics : Diagnostics}
    (flight : d.flight? f.id = some f) (stage : f.stage = .surveying survey)
    (asks : survey.map (·.1) = Discovery.sources s.options s.registry f.key.pair f.key.network)
    (loaded : survey.results? = some listings)
    (concluded : Discovery.conclude s.options s.registry f.key.pair f.key.network listings =
      (m, diagnostics)) : answers.found s f.key = m := by
  have comes : ∀ x ∈ survey, x.2.ComesTo (answers.listing x.1) := by
    intro x member
    obtain ⟨i, there⟩ := List.mem_iff_getElem?.mp member
    have visit := visit?_flight.mpr ⟨f, survey, flight, stage, there⟩
    have asked : x.1 ∈ survey.map (·.1) := List.mem_map_of_mem member
    rw [asks] at asked
    exact (informed.visit _ _ _ _ visit).2 (Discovery.listing_of_mem_sources _ _ _ _ asked)
  rw [Survey.results?_eq loaded comes, asks] at concluded
  exact congrArg Prod.fst concluded

end Desk

end PriceDesk
