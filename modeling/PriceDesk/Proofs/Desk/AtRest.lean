import PriceDesk.Proofs.Desk.Isolation
import PriceDesk.Proofs.Desk.Operations
import PriceDesk.Proofs.Desk.Steady

namespace PriceDesk

variable {ω α : Type}

theorem Pending.Brings.conclude {ε : Type} {call : Pending ε α} {outcome : Except ε α}
    (brings : call.Brings outcome) (now : Instant) : (call.conclude now).2 = outcome := by
  obtain ⟨t, ready, soon⟩ := brings.inTime
  exact (Pending.conclude_in_time now ready soon).trans brings.outcome

theorem Floor.together_eq_map {β : Type} {call : β → Instant → ω → Pending MarketError α × ω}
    {outcome : β → Except MarketError α} {xs : List β} (f : Floor ω)
    (each : ∀ x ∈ xs, ∀ w, ((call x f.clock.now w).1.conclude f.clock.now).2 = outcome x) :
    (f.together (xs.map call)).1 = xs.map outcome := by
  rw [f.together_fst]
  generalize f.world = w
  induction xs generalizing w with
  | nil => rfl
  | cons x xs ih =>
    have first := each x List.mem_cons_self w
    have rest := ih (fun y member => each y (List.mem_cons_of_mem _ member))
      (call x f.clock.now w).2
    simp only [List.map_cons, beginAll, first, rest]

theorem Floor.together_brings {β : Type} {call : β → Instant → ω → Pending MarketError α × ω}
    {outcome : β → Except MarketError α} {xs : List β} (f : Floor ω)
    (each : ∀ x ∈ xs, ∀ now w, (call x now w).1.Brings (outcome x)) :
    (f.together (xs.map call)).1 = xs.map outcome :=
  f.together_eq_map fun x member w => (each x member f.clock.now w).conclude f.clock.now

theorem Pending.Brings.at_once {ε : Type} (now : Instant) (outcome : Except ε α) :
    ({ readyAt := some now, outcome } : Pending ε α).Brings outcome :=
  ⟨rfl, now, rfl, nofun⟩

namespace Answers

variable (answers : Answers ω) (s : Setup ω)

def listed (p : Provider ω) : Except MarketError Listing :=
  match p.listing with
  | none => .error (.noProviderForNetwork p.network.name Capability.assetPairs.name)
  | some _ => answers.listing p

def asked (pair : AssetPair) (x : Desk.Coverage ω) : Except MarketError Quotes :=
  match x.1.pricing with
  | none => .error (.noProviderForNetwork x.1.network.name Capability.pricing.name)
  | some pricing =>
    answers.quotes x.1 (Desk.singleOrAll pricing.features (Desk.listedPair pair x.2))

def coverage (pair : AssetPair) (c : Capability) : Except MarketError (List (Desk.Coverage ω)) :=
  let ps := s.registry.direct c
  if ps.isEmpty then .error .noProvidersAvailable
  else .ok (Desk.covering pair ps (ps.map answers.listed))

def quotesForPair (pair : AssetPair) : Except MarketError (List Quote) :=
  (answers.coverage s pair .pricing).bind fun covered =>
    Desk.keepSuccesses (covered.map fun x => (answers.asked pair x).bind (Desk.quoteFrom pair x.2))

variable {answers s}

theorem listed_of_isSome {p : Provider ω} (lists : p.listing.isSome = true) :
    answers.listed p = answers.listing p := by
  obtain ⟨call, has⟩ := Option.isSome_iff_exists.mp lists
  simp only [listed, has]

theorem Steady.brings_listed (steady : answers.Steady s) {p : Provider ω}
    (registered : p ∈ s.registry.providers) {known : Option Listing}
    (informed : ∀ l, known = some l → answers.listing p = .ok l) (now : Instant) (w : ω) :
    (Survey.listingTurn s.listingTimeout known p now w).1.Brings (answers.listed p) := by
  cases lists : p.listing with
  | none =>
    simp only [Survey.listingTurn, Survey.listingCall, listed, lists]
    exact .at_once now _
  | some call =>
    simp only [Survey.listingTurn, listed, lists]
    cases known with
    | none => exact steady.listing p registered call lists now w
    | some l =>
      rw [informed l rfl]
      exact .at_once now _

theorem Steady.brings_asked (steady : answers.Steady s) (pair : AssetPair) {x : Desk.Coverage ω}
    (registered : x.1 ∈ s.registry.providers) (now : Instant) (w : ω) :
    (Desk.quoteCall s pair x now w).1.Brings (answers.asked pair x) := by
  obtain ⟨p, isReversed⟩ := x
  cases prices : p.pricing with
  | none =>
    simp only [Desk.quoteCall, asked, prices]
    exact .at_once now _
  | some pricing =>
    simp only [Desk.quoteCall, asked, prices]
    exact steady.quotes p registered pricing prices _ now w

theorem mem_coverage {pair : AssetPair} {c : Capability} {covered : List (Desk.Coverage ω)}
    (covers : answers.coverage s pair c = .ok covered) {x : Desk.Coverage ω} :
    x ∈ covered ↔ ∃ l, x.1 ∈ s.registry.direct c ∧ answers.listed x.1 = .ok l ∧
      Desk.covers? pair (x.1, l) = some x := by
  unfold coverage at covers
  simp only at covers
  split at covers
  · cases covers
  cases covers
  rw [Desk.covering_eq, List.mem_filterMap]
  constructor
  · rintro ⟨⟨p, l⟩, heard, covers⟩
    have same : x.1 = p := Desk.fst_of_covers? covers
    obtain ⟨member, listed⟩ := Discovery.mem_heard_map.mp heard
    exact ⟨l, same ▸ member, same ▸ listed, same ▸ covers⟩
  · rintro ⟨l, member, listed, covers⟩
    exact ⟨(x.1, l), Discovery.mem_heard_map.mpr ⟨member, listed⟩, covers⟩

theorem registered_of_mem_coverage {pair : AssetPair} {c : Capability}
    {covered : List (Desk.Coverage ω)} (covers : answers.coverage s pair c = .ok covered)
    {x : Desk.Coverage ω} (member : x ∈ covered) : x.1 ∈ s.registry.providers := by
  obtain ⟨_, direct, _, _⟩ := (mem_coverage covers).mp member
  exact Discovery.mem_of_direct direct

theorem listed_eq_ok {p : Provider ω} {l : Listing} :
    answers.listed p = .ok l ↔ p.listing.isSome = true ∧ answers.listing p = .ok l := by
  cases lists : p.listing with
  | none => simp [listed, lists]
  | some call => simp [listed, lists]

end Answers

namespace Desk

variable {s : Setup ω} {answers : Answers ω} {d e : Desk ω} {ps : List (Provider ω)}
  {pair : AssetPair} {network : Option Network}

structure InOrder (s : Setup ω) (answers : Answers ω) (d : Desk ω) : Prop where
  coherent : Coherent d
  orderly : d.floor.listings.Orderly d.visits
  informed : Informed s answers d
  lists : ∀ owner index p l, d.visit? owner index = some (p, l) → l.result? = none →
    p.listing.isSome = true

namespace InOrder

theorem start {floor : Floor ω} {ttl : Duration} (fresh : floor.listings = { ttl }) :
    InOrder s answers { floor } := by
  have run := Run.start (s := s) floor
  exact ⟨run.coherent, run.orderly fresh, .start fresh, fun _ _ _ _ => run.lists⟩

theorem move (inOrder : InOrder s answers d) (fixed : answers.Lists s) {a : Action ω}
    (enrolled : a.Enrolled s) (t : Transition s d a e) : InOrder s answers e where
  coherent := inOrder.coherent.move t
  orderly := inOrder.coherent.orderly_move inOrder.orderly t
  informed := by
    refine inOrder.informed.move fixed inOrder.coherent t ?_ inOrder.lists
    intro ps surveys
    cases surveys
    exact enrolled
  lists _ _ _ _ := lists_move inOrder.coherent t inOrder.lists

theorem onFloor (inOrder : InOrder s answers d) {floor : Floor ω}
    (same : floor.listings = d.floor.listings) : InOrder s answers (d.onFloor floor) where
  coherent := inOrder.coherent.onFloor floor
  orderly := by
    show floor.listings.Orderly d.visits
    exact same ▸ inOrder.orderly
  informed := by
    refine ⟨fun p member x entry => ?_, inOrder.informed.visit⟩
    exact inOrder.informed.entry p member x (same ▸ entry)
  lists := inOrder.lists

theorem reaches (inOrder : InOrder s answers d) (fixed : answers.Lists s)
    (reached : Reaches s d e) : InOrder s answers e := by
  induction reached with
  | refl => exact inOrder
  | tail _ leads ih =>
    obtain ⟨a, enrolled, step⟩ := leads
    exact ih.move fixed enrolled (transition_of_step step)

theorem perform (inOrder : InOrder s answers d) (fixed : answers.Lists s) {op : Operation ω}
    (enrolled : op.Enrolled s) : InOrder s answers (op.perform s d) := by
  obtain ⟨e, floor, reached, same, performs⟩ := Operation.reaches_perform (d := d) enrolled
  rw [performs]
  exact (inOrder.reaches fixed reached).onFloor same

theorem performAll (inOrder : InOrder s answers d) (fixed : answers.Lists s)
    {ops : List (Operation ω)} (enrolled : ∀ op ∈ ops, op.Enrolled s) :
    InOrder s answers (Operation.performAll s d ops) := by
  induction ops generalizing d with
  | nil => exact inOrder
  | cons op ops ih =>
    have first := inOrder.perform fixed (enrolled op List.mem_cons_self)
    exact ih first fun o later => enrolled o (List.mem_cons_of_mem _ later)

end InOrder

/-- Nobody waits on the desk, and no flight that was given up searches. -/
structure AtRest (d : Desk ω) : Prop where
  alone : d.callers = []
  searched : ∀ f ∈ d.flights, f.stage.survey? = none

/-- A desk that has been made to do something since it was opened, and is at rest now. -/
structure Used (s : Setup ω) (d : Desk ω) : Prop where
  history : ∃ (floor : Floor ω) (ttl : Duration) (ops : List (Operation ω)),
    floor.listings = { ttl } ∧ (∀ op ∈ ops, op.Enrolled s) ∧
      d = Operation.performAll s { floor } ops
  rests : d.AtRest

theorem AtRest.visits (rests : d.AtRest) : d.visits = [] := by
  have searched : d.flights.flatMap (·.stage.visits) = [] := by
    refine List.flatMap_eq_nil_iff.mpr fun f member => ?_
    have done := rests.searched f member
    cases stage : f.stage with
    | surveying survey =>
      rw [stage] at done
      cases done
    | choosing _ _ _ | asking _ _ _ _ | combining _ _ | done _ => rfl
  rw [Desk.visits, searched, rests.alone]
  rfl

theorem Used.inOrder (fixed : answers.Lists s) (used : Used s d) : InOrder s answers d := by
  obtain ⟨floor, ttl, ops, fresh, enrolled, rfl⟩ := used.history
  exact (InOrder.start fresh).performAll fixed enrolled

theorem Used.free (fixed : answers.Lists s) (used : Used s d) (id : String) :
    (d.floor.listings.slot id).queue = [] := by
  have standing := (used.inOrder fixed).orderly.standing id
  rw [used.rests.visits] at standing
  exact standing.symm.eq_nil

theorem survey_eq_map {outcome : Provider ω → Except MarketError Listing} (alone : d.callers = [])
    (free : ∀ p ∈ ps, (d.floor.listings.slot p.id).queue = [])
    (registered : ps.Sublist s.registry.providers)
    (each : ∀ p ∈ ps, ∀ w, ((Survey.listingTurn s.listingTimeout (Survey.known d.floor p) p
      d.floor.clock.now w).1.conclude d.floor.clock.now).2 = outcome p) :
    (survey s d ps).1 = ps.map outcome := by
  rw [(survey_eq_turns alone free (s.registry.distinct.sublist registered)
    registered.length_le).1]
  exact d.floor.together_eq_map each

section Used

variable (steady : answers.Steady s) (used : Used s d)

include steady used

theorem Used.survey_eq (registered : ps.Sublist s.registry.providers) :
    (survey s d ps).1 = ps.map answers.listed := by
  refine survey_eq_map used.rests.alone (fun p _ => used.free steady.lists p.id) registered
    fun p member w => ?_
  refine (steady.brings_listed (registered.subset member) (fun l known => ?_) _ w).conclude _
  obtain ⟨x, entry, _, rfl⟩ := Memo.fresh?_eq_some_iff.mp known
  exact (used.inOrder steady.lists).informed.entry p (registered.subset member) x entry

theorem Used.discover_eq : (discover s d pair network).1.1 =
    answers.found s { pair, network } := by
  have sources : (survey s d (Discovery.sources s.options s.registry pair network)).1 =
      (Discovery.sources s.options s.registry pair network).map answers.listing := by
    rw [used.survey_eq steady Discovery.sources_sublist]
    refine List.map_congr_left fun p member => ?_
    exact Answers.listed_of_isSome (Discovery.listing_of_mem_sources _ _ _ _ member)
  rw [discover_fst, sources]
  rfl

theorem Used.coverage_eq (c : Capability) :
    (coverage s d pair c).1 = answers.coverage s pair c := by
  unfold Desk.coverage Answers.coverage
  simp only
  split
  · rfl
  · rw [← used.survey_eq steady direct_sublist]

theorem Used.quotesForPair_eq : (quotesForPair s d pair).1 = answers.quotesForPair s pair := by
  have covers : (coverage s d pair .pricing).1 = answers.coverage s pair .pricing :=
    used.coverage_eq steady .pricing
  rw [Desk.quotesForPair_eq, Desk.answers, covers, Answers.quotesForPair]
  cases covered : answers.coverage s pair .pricing with
  | error e => rfl
  | ok covered' =>
    have brings := (coverage s d pair .pricing).2.floor.together_brings fun x member =>
      steady.brings_asked pair (x := x) (Answers.registered_of_mem_coverage covered member)
    simp only [Except.map, Except.bind, brings, ← List.map_prod_left_eq_zip, List.map_map]
    rfl

end Used

end Desk

end PriceDesk
