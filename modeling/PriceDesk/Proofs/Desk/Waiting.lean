import Mathlib.Logic.Relation
import PriceDesk.Proofs.Desk.Attendance
import PriceDesk.Proofs.Desk.Positions

namespace PriceDesk

variable {ω : Type}

inductive Node where
  | caller (id : Nat)
  | flight (id : Nat)
  | lookup (owner : Owner) (index : Nat)
  | slot (provider : String)
  | listingCall (owner : Owner) (index : Nat)
  | quotesCall (flight : Nat)

def Node.isCall : Node → Bool
  | .listingCall _ _ | .quotesCall _ => true
  | _ => false

def Owner.node : Owner → Node
  | .flight id => .flight id
  | .caller id => .caller id

def Move.IsPatient (m : Move ω) : Prop :=
  ∀ c, m.action = .drop c → ∃ survey : Survey ω, m.before.caller? c = some (.surveying survey) ∧
    survey.results?.isSome = true

namespace Survey

variable {survey : Survey ω} {i : Nat} {p : Provider ω} {l : Lookup MarketError Listing}

theorem exists_going (missing : survey.results? = none) :
    ∃ i : Nat, ∃ p l, survey[i]? = some (p, l) ∧ l.result? = none := by
  induction survey with
  | nil => cases missing
  | cons x survey ih =>
    obtain ⟨p, l⟩ := x
    cases answer : l.result? with
    | none => exact ⟨0, p, l, rfl, answer⟩
    | some r =>
      cases rest : results? survey with
      | none =>
        obtain ⟨i, q, k, there, going⟩ := ih rest
        exact ⟨i + 1, q, k, there, going⟩
      | some rs =>
        rw [results?] at rest missing
        simp [List.mapM_cons, answer, rest] at missing

theorem isSome_step {timeout : Duration} {floor : Floor ω} (there : survey[i]? = some (p, l))
    (lists : p.listing.isSome = true) :
    (survey.step timeout floor i).isSome = l.canMove p.id floor.clock.now floor.listings := by
  obtain ⟨call, lists⟩ := Option.isSome_iff_exists.mp lists
  let start := call.invoke p.id "get_asset_pairs" timeout floor.clock.now
  have moves : (l.step start p.id floor.clock floor.listings floor.world).isSome =
      l.canMove p.id floor.clock.now floor.listings := Lookup.isSome_step l
  rw [← moves]
  simp only [step, there, lists, Option.bind_eq_bind, Option.bind_some]
  cases l.step start p.id floor.clock floor.listings floor.world <;> rfl

end Survey

namespace Desk

variable {s : Setup ω} {d e : Desk ω} {moves : List (Move ω)}

inductive Waits (d : Desk ω) : Node → Node → Prop
  | price {c id : Nat} {f : Flight ω} (caller : (c, Caller.awaiting id) ∈ d.callers)
      (flight : d.flight? id = some f) (going : f.stage.result? = none) :
      Waits d (.caller c) (.flight id)
  | listing {owner : Owner} {index : Nat} {p : Provider ω} {l : Lookup MarketError Listing}
      (there : d.visit? owner index = some (p, l)) (going : l.result? = none) :
      Waits d owner.node (.lookup owner index)
  | queue {owner : Owner} {index : Nat} {p : Provider ω} {ticket : Nat}
      (there : d.visit? owner index = some (p, .queued ticket))
      (later : d.floor.listings.isTurn p.id ticket = false) :
      Waits d (.lookup owner index) (.slot p.id)
  | turn {owner : Owner} {index : Nat} {p : Provider ω} {l : Lookup MarketError Listing}
      {ticket : Nat} (there : d.visit? owner index = some (p, l)) (stands : l.ticket? = some ticket)
      (turn : d.floor.listings.isTurn p.id ticket = true) :
      Waits d (.slot p.id) (.lookup owner index)
  | loading {owner : Owner} {index : Nat} {p : Provider ω} {ticket : Nat}
      {call : Pending MarketError Listing}
      (there : d.visit? owner index = some (p, .computing ticket call))
      (pending : call.poll d.floor.clock.now = none) :
      Waits d (.lookup owner index) (.listingCall owner index)
  | leg {id i : Nat} {f g : Flight ω} (flight : d.flight? id = some f) (leg : i ∈ f.stage.legs)
      (there : d.flight? i = some g) (going : g.stage.result? = none) :
      Waits d (.flight id) (.flight i)
  | asking {id : Nat} {f : Flight ω} {leg : Leg} {p : Provider ω}
      {call : Pending MarketError Quotes} {queue : List (Provider ω)}
      (flight : d.flight? id = some f) (stage : f.stage = .asking leg p call queue)
      (pending : call.poll d.floor.clock.now = none) :
      Waits d (.flight id) (.quotesCall id)

inductive Engaged (d : Desk ω) : Node → Prop
  | awaiting {c id : Nat} (caller : (c, Caller.awaiting id) ∈ d.callers) : Engaged d (.caller c)
  | surveying {c : Nat} {survey : Survey ω} (caller : d.caller? c = some (.surveying survey)) :
      Engaged d (.caller c)
  | flight {id : Nat} {f : Flight ω} (flight : d.flight? id = some f)
      (going : f.stage.result? = none) : Engaged d (.flight id)
  | lookup {owner : Owner} {index : Nat} {p : Provider ω} {l : Lookup MarketError Listing}
      (there : d.visit? owner index = some (p, l)) (going : l.result? = none) :
      Engaged d (.lookup owner index)
  | slot {k : String} (used : (d.floor.listings.slot k).queue ≠ []) : Engaged d (.slot k)
  | listingCall {owner : Owner} {index : Nat} {p : Provider ω} {ticket : Nat}
      {call : Pending MarketError Listing}
      (there : d.visit? owner index = some (p, .computing ticket call))
      (pending : call.poll d.floor.clock.now = none) : Engaged d (.listingCall owner index)
  | quotesCall {id : Nat} {f : Flight ω} {leg : Leg} {p : Provider ω}
      {call : Pending MarketError Quotes} {queue : List (Provider ω)}
      (flight : d.flight? id = some f) (stage : f.stage = .asking leg p call queue)
      (pending : call.poll d.floor.clock.now = none) : Engaged d (.quotesCall id)

/-- Whether something can move by itself; who asked for listings is ready when all are there. -/
def Runnable (s : Setup ω) (d : Desk ω) : Node → Prop
  | .caller c => (step s d (.collect c)).isSome = true ∨
      ∃ survey : Survey ω, d.caller? c = some (.surveying survey) ∧ survey.results?.isSome = true
  | .flight id => (step s d (.advance id)).isSome = true
  | .lookup owner index => (step s d (.lookup owner index)).isSome = true
  | .slot _ | .listingCall _ _ | .quotesCall _ => False

def rank (d : Desk ω) : Node → Nat
  | .caller _ => 6
  | .flight id => if (d.flight? id).any fun f => f.stage.legs ≠ [] then 5 else 4
  | .lookup owner index =>
    if (d.visit? owner index).any fun (p, l) => l.ticket?.any (d.floor.listings.isTurn p.id) then 1
    else 3
  | .slot _ => 2
  | .listingCall _ _ | .quotesCall _ => 0

theorem Run.leg_uncombined (run : Run s moves d) {f : Flight ω} (member : f ∈ d.flights)
    (part : f.key.isLeg = true) : f.stage.legs = [] := by
  induction run generalizing f with
  | start floor => cases member
  | move run whole step ih =>
    cases origin run.coherent (transition_of_step step) member with
    | kept was => exact ih was part
    | @moved g was _ key follows =>
      have ended := run.leg_unsearched was (key ▸ part)
      generalize g.stage = x at follows ended
      generalize f.stage = y at follows
      cases follows with
      | splits => cases ended
      | looks | finds | skips | asks | retries | ends _ => rfl
    | asked _ _ stage =>
      rw [stage]
      exact (Coherent.legs_opening s f.key none).1
    | leg _ _ stage =>
      rw [stage]
      exact (Coherent.legs_opening s f.key _).1

theorem rank_flight (d : Desk ω) (id : Nat) :
    4 ≤ rank d (.flight id) ∧ rank d (.flight id) ≤ 5 := by
  simp only [rank]
  split <;> omega

theorem rank_lookup (d : Desk ω) (owner : Owner) (index : Nat) :
    1 ≤ rank d (.lookup owner index) ∧ rank d (.lookup owner index) ≤ 3 := by
  simp only [rank]
  split <;> omega

theorem Run.rank_lt (run : Run s moves d) {x y : Node} (waits : Waits d x y) :
    rank d y < rank d x := by
  cases waits with
  | @price c id f caller flight going =>
    have bound := (rank_flight d id).2
    exact Nat.lt_succ_of_le bound
  | @listing owner index p l there going =>
    have bound := (rank_lookup d owner index).2
    cases owner with
    | flight id => exact Nat.lt_of_le_of_lt bound (rank_flight d id).1
    | caller id => exact Nat.lt_of_le_of_lt bound (show 3 < 6 by decide)
  | queue there later => simp [rank, there, Lookup.ticket?, later]
  | turn there stands turn => simp [rank, there, stands, turn]
  | @loading owner index p ticket call there pending => exact (rank_lookup d owner index).1
  | @leg id i f g flight leg there going =>
    have member := mem_of_flight? there
    have part : g.key.isLeg = true := by
      apply run.legs_isLeg (mem_of_flight? flight) member
      rw [id_of_flight? there]
      exact leg
    have plain := run.leg_uncombined member part
    have combines : f.stage.legs ≠ [] := List.ne_nil_of_mem leg
    simp [rank, flight, there, plain, combines]
  | @asking id f leg p call queue flight stage pending =>
    exact Nat.lt_of_lt_of_le (show 0 < 4 by decide) (rank_flight d id).1

theorem Run.wellFounded_waits (run : Run s moves d) : WellFounded (flip (Waits d)) := by
  have falls : Subrelation (flip (Waits d)) (InvImage (· < ·) (rank d)) := run.rank_lt
  exact falls.wf (InvImage.wf (rank d) Nat.lt_wfRel.wf)

theorem Run.no_circle (run : Run s moves d) (x : Node) : ¬ Relation.TransGen (Waits d) x x := by
  have falls : ∀ y, Relation.TransGen (Waits d) x y → rank d y < rank d x := by
    intro y chain
    induction chain with
    | single waits => exact run.rank_lt waits
    | tail _ waits ih => exact Nat.lt_trans (run.rank_lt waits) ih
  intro circle
  exact Nat.lt_irrefl _ (falls x circle)

theorem Run.awaited_of_patient (run : Run s moves d) (patient : ∀ m ∈ moves, m.IsPatient)
    {f : Flight ω} (member : f ∈ d.flights) (going : f.stage.result? = none) :
    d.isAwaited f.id = true := by
  rcases run.attended member going with awaited | ⟨m, among, abandons⟩
  · exact awaited
  · obtain ⟨c, i, drops, waits⟩ := abandons.drops
    obtain ⟨survey, surveying, _⟩ := patient m among c drops
    rw [(run.move_of_mem among).1.caller?_of_mem waits] at surveying
    cases surveying

theorem Coherent.caller_ready (h : Coherent d) {c : Nat} (engaged : Engaged d (.caller c)) :
    (∃ y, Waits d (.caller c) y) ∨ Runnable s d (.caller c) := by
  cases engaged with
  | @awaiting c id caller =>
    obtain ⟨f, there, rfl⟩ := h.awaited c id caller
    have flight := h.flight?_of_mem there
    cases result : f.stage.result? with
    | none => exact .inl ⟨_, .price caller flight result⟩
    | some r => exact .inr (.inl (by simp [step, h.caller?_of_mem caller, flight, result]))
  | @surveying c survey caller =>
    cases loaded : survey.results? with
    | none =>
      obtain ⟨i, p, l, there, going⟩ := Survey.exists_going loaded
      have visit : d.visit? (.caller c) i = some (p, l) :=
        visit?_caller.mpr ⟨survey, caller, there⟩
      have waits := Waits.listing visit going
      exact .inl ⟨_, waits⟩
    | some listings => exact .inr (.inr ⟨survey, caller, by rw [loaded]; rfl⟩)

theorem Coherent.flight_runs (h : Coherent d) {f : Flight ω} (member : f ∈ d.flights)
    (awaited : d.isAwaited f.id = true) (advances : (advance s d f).isSome = true) :
    Runnable s d (.flight f.id) := by
  simp only [Runnable, step, awaited, if_true, h.flight?_of_mem member, Option.bind_some]
  exact advances

theorem isSome_advance {f : Flight ω} {leg : Leg} {p : Provider ω}
    {call : Pending MarketError Quotes} {queue : List (Provider ω)}
    {outcome : Except MarketError Quotes} (stage : f.stage = .asking leg p call queue)
    (answer : call.poll d.floor.clock.now = some outcome) : (advance s d f).isSome = true := by
  cases priced : outcome.bind (priceOf leg p.id) <;> simp [advance, stage, answer, priced]

theorem Coherent.flight_ready (h : Coherent d) {f : Flight ω} (member : f ∈ d.flights)
    (going : f.stage.result? = none) (awaited : d.isAwaited f.id = true) :
    (∃ y, Waits d (.flight f.id) y) ∨ Runnable s d (.flight f.id) := by
  have flight := h.flight?_of_mem member
  have moves : (advance s d f).isSome = true → Runnable s d (.flight f.id) :=
    h.flight_runs member awaited
  cases stage : f.stage with
  | surveying survey =>
    cases loaded : survey.results? with
    | none =>
      obtain ⟨i, p, l, there, going⟩ := Survey.exists_going loaded
      have visit : d.visit? (.flight f.id) i = some (p, l) :=
        visit?_flight.mpr ⟨f, survey, flight, stage, there⟩
      have waits := Waits.listing visit going
      exact .inl ⟨_, waits⟩
    | some listings => exact .inr (moves (by simp [advance, stage, loaded]))
  | choosing leg queue failure =>
    refine .inr (moves ?_)
    cases queue with
    | nil => simp [advance, stage]
    | cons p queue => cases quotes : p.pricing <;> simp [advance, stage, quotes]
  | asking leg p call queue =>
    cases answer : call.poll d.floor.clock.now with
    | none => exact .inl ⟨_, .asking flight stage answer⟩
    | some outcome => exact .inr (moves (isSome_advance stage answer))
  | combining i j =>
    have legs : ∀ k ∈ f.stage.legs, ∃ g, d.flight? k = some g := by
      intro k leg
      obtain ⟨g, there, rfl⟩ := h.legs f member k leg
      exact ⟨g, h.flight?_of_mem there⟩
    have first : i ∈ f.stage.legs := by simp [stage, Stage.legs]
    have second : j ∈ f.stage.legs := by simp [stage, Stage.legs]
    obtain ⟨g, one⟩ := legs i first
    obtain ⟨g', two⟩ := legs j second
    cases oneDone : g.stage.result? with
    | none => exact .inl ⟨_, .leg flight first one oneDone⟩
    | some r =>
      cases twoDone : g'.stage.result? with
      | none => exact .inl ⟨_, .leg flight second two twoDone⟩
      | some r' => exact .inr (moves (by simp [advance, stage, one, two, oneDone, twoDone]))
  | done r =>
    rw [stage] at going
    cases going

theorem Run.lookup_runs (run : Run s moves d) (patient : ∀ m ∈ moves, m.IsPatient)
    {owner : Owner} {index : Nat} {p : Provider ω} {l : Lookup MarketError Listing}
    (there : d.visit? owner index = some (p, l)) (going : l.result? = none)
    (can : l.canMove p.id d.floor.clock.now d.floor.listings = true) :
    Runnable s d (.lookup owner index) := by
  have lists := run.lists there going
  have moves : ∀ survey : Survey ω, survey[index]? = some (p, l) →
      (survey.step s.listingTimeout d.floor index).isSome = true :=
    fun survey at_ => (Survey.isSome_step at_ lists).trans can
  cases owner with
  | flight id =>
    obtain ⟨f, survey, flight, stage, at_⟩ := visit?_flight.mp there
    obtain ⟨⟨survey', floor⟩, looks⟩ := Option.isSome_iff_exists.mp (moves survey at_)
    have awaited := run.awaited_of_patient patient (mem_of_flight? flight) (by rw [stage]; rfl)
    rw [id_of_flight? flight] at awaited
    simp [Runnable, step, awaited, lookup, flight, stage, Stage.survey?, looks]
  | caller id =>
    obtain ⟨survey, caller, at_⟩ := visit?_caller.mp there
    obtain ⟨⟨survey', floor⟩, looks⟩ := Option.isSome_iff_exists.mp (moves survey at_)
    simp [Runnable, step, lookup, caller, looks]

theorem Run.lookup_ready (run : Run s moves d) (patient : ∀ m ∈ moves, m.IsPatient)
    {owner : Owner} {index : Nat} {p : Provider ω} {l : Lookup MarketError Listing}
    (there : d.visit? owner index = some (p, l)) (going : l.result? = none) :
    (∃ y, Waits d (.lookup owner index) y) ∨ Runnable s d (.lookup owner index) := by
  cases can : l.canMove p.id d.floor.clock.now d.floor.listings with
  | true => exact .inr (run.lookup_runs patient there going can)
  | false =>
    refine .inl ?_
    cases l with
    | idle => cases can
    | queued ticket => exact ⟨_, .queue there can⟩
    | computing ticket call =>
      have pending := Option.isNone_iff_eq_none.mp (Option.isSome_eq_false_iff.mp can)
      exact ⟨_, .loading there pending⟩
    | done r => cases going

theorem Run.slot_ready (run : Run s moves d) {ttl : Duration}
    (fresh : (opened moves d).floor.listings = { ttl }) {k : String}
    (used : (d.floor.listings.slot k).queue ≠ []) : ∃ y, Waits d (.slot k) y := by
  obtain ⟨ticket, rest, queue⟩ := List.exists_cons_of_ne_nil used
  have first : ticket ∈ (d.floor.listings.slot k).queue := by simp [queue]
  have standing := ((run.orderly fresh).standing k).mem_iff.mpr first
  obtain ⟨v, visit, own, stands⟩ := Memo.mem_tickets.mp standing
  obtain ⟨owner, index, p, l, there, rfl⟩ := run.coherent.mem_visits.mp visit
  cases beq_iff_eq.mp own
  have turn : d.floor.listings.isTurn p.id ticket = true := by
    rw [Memo.isTurn_iff, queue]
    rfl
  exact ⟨_, .turn there stands turn⟩

theorem Run.ready (run : Run s moves d) {ttl : Duration}
    (fresh : (opened moves d).floor.listings = { ttl }) (patient : ∀ m ∈ moves, m.IsPatient)
    {x : Node} (engaged : Engaged d x) :
    (∃ y, Waits d x y) ∨ x.isCall = true ∨ Runnable s d x := by
  cases engaged with
  | awaiting caller => exact (run.coherent.caller_ready (.awaiting caller)).imp_right .inr
  | surveying caller => exact (run.coherent.caller_ready (.surveying caller)).imp_right .inr
  | flight flight going =>
    have member := mem_of_flight? flight
    cases id_of_flight? flight
    have awaited := run.awaited_of_patient patient member going
    exact (run.coherent.flight_ready member going awaited).imp_right .inr
  | lookup there going => exact (run.lookup_ready patient there going).imp_right .inr
  | slot used => exact .inl (run.slot_ready fresh used)
  | listingCall there pending => exact .inr (.inl rfl)
  | quotesCall flight stage pending => exact .inr (.inl rfl)

theorem Run.engaged (run : Run s moves d) {ttl : Duration}
    (fresh : (opened moves d).floor.listings = { ttl }) {x y : Node} (waits : Waits d x y) :
    Engaged d y := by
  cases waits with
  | price caller flight going => exact .flight flight going
  | listing there going => exact .lookup there going
  | @queue owner index p ticket there later =>
    have visit := run.coherent.mem_visits.mpr ⟨owner, index, p, _, there, rfl⟩
    have standing := Memo.mem_tickets.mpr ⟨_, visit, beq_self_eq_true p.id, rfl⟩
    exact .slot (List.ne_nil_of_mem (((run.orderly fresh).standing p.id).mem_iff.mp standing))
  | @turn owner index p l ticket there stands turn =>
    refine .lookup there ?_
    cases l with
    | done r => cases stands
    | idle | queued _ | computing _ _ => rfl
  | loading there pending => exact .listingCall there pending
  | leg flight leg there going => exact .flight there going
  | asking flight stage pending => exact .quotesCall flight stage pending

/-- From whatever is under way, waits lead to a call to a provider or to something that can move. -/
theorem Run.reaches (run : Run s moves d) {ttl : Duration}
    (fresh : (opened moves d).floor.listings = { ttl }) (patient : ∀ m ∈ moves, m.IsPatient)
    {x : Node} (engaged : Engaged d x) :
    ∃ y, Relation.ReflTransGen (Waits d) x y ∧ (y.isCall = true ∨ Runnable s d y) := by
  induction x using run.wellFounded_waits.induction with
  | _ x ih =>
    rcases run.ready fresh patient engaged with ⟨y, waits⟩ | ends
    · obtain ⟨z, chain, ends⟩ := ih y waits (run.engaged fresh waits)
      exact ⟨z, chain.head waits, ends⟩
    · exact ⟨x, .refl, ends⟩

theorem Run.leg_waits (run : Run s moves d) {f : Flight ω} (member : f ∈ d.flights)
    (part : f.key.isLeg = true) {y : Node} (chain : Relation.TransGen (Waits d) (.flight f.id) y) :
    y = .quotesCall f.id := by
  induction chain with
  | single waits =>
    generalize start : Node.flight f.id = x at waits
    cases waits with
    | @listing owner index p l there going =>
      cases owner with
      | flight id =>
        cases start
        obtain ⟨g, survey, flight, stage, _⟩ := visit?_flight.mp there
        rw [run.coherent.flight?_of_mem member] at flight
        cases flight
        have ended := run.leg_unsearched member part
        rw [stage] at ended
        cases ended
      | caller id => cases start
    | @leg id i g h flight leg there going =>
      cases start
      rw [run.coherent.flight?_of_mem member] at flight
      cases flight
      rw [run.leg_uncombined member part] at leg
      cases leg
    | asking flight stage pending =>
      cases start
      rfl
    | price _ _ _ | queue _ _ | turn _ _ _ | loading _ _ => cases start
  | tail _ waits ih =>
    rw [ih] at waits
    exact absurd (run.rank_lt waits) (Nat.not_lt_zero _)

structure Lively (s : Setup ω) (d : Desk ω) : Prop where
  noCircle : ∀ x, ¬ Relation.TransGen (Waits d) x x
  finite : WellFounded (flip (Waits d))
  ends : ∀ x y, Waits d x y → (∀ z, ¬ Waits d y z) → y.isCall = true ∨ Runnable s d y
  idle : ∀ x, Engaged d x → (∀ z, ¬ Waits d x z) → x.isCall = true ∨ Runnable s d x
  reaches : ∀ x, Engaged d x →
    ∃ y, Relation.ReflTransGen (Waits d) x y ∧ (y.isCall = true ∨ Runnable s d y)
  legs : ∀ f ∈ d.flights, f.key.isLeg = true →
    ∀ y, Relation.TransGen (Waits d) (.flight f.id) y → y = .quotesCall f.id

/-- However requests and lookups interleave, as long as nobody goes away who waits, the waits form
no circle and every chain of them ends where something goes on. -/
theorem waits_end_where_something_goes_on (run : Run s moves d) {ttl : Duration}
    (fresh : (opened moves d).floor.listings = { ttl }) (patient : ∀ m ∈ moves, m.IsPatient) :
    Lively s d where
  noCircle := run.no_circle
  finite := run.wellFounded_waits
  ends := by
    intro x y waits last
    rcases run.ready fresh patient (run.engaged fresh waits) with ⟨z, more⟩ | ends
    · exact absurd more (last z)
    · exact ends
  idle := by
    intro x engaged last
    rcases run.ready fresh patient engaged with ⟨z, more⟩ | ends
    · exact absurd more (last z)
    · exact ends
  reaches := fun x => run.reaches fresh patient
  legs := fun f member part y => run.leg_waits member part

/-- A flight and a caller load one listing: the caller waits in the queue for the lookup of the
flight, and this one can move. -/
theorem prompt_queue_is_lively : ∃ moves d, Run (promptSetup [.of "BTC" "USD"]) moves d ∧
    Relation.TransGen (Waits d) (.caller 1) (.lookup (.flight 0) 0) ∧
    Runnable (promptSetup [.of "BTC" "USD"]) d (.lookup (.flight 0) 0) ∧
    Lively (promptSetup [.of "BTC" "USD"]) d := by
  have run := Run.start (s := promptSetup [.of "BTC" "USD"]) promptFloor
    |>.move (a := .request { pair := .of "BTC" "USD" }) rfl rfl
    |>.move (a := .survey [promptProvider [.of "BTC" "USD"]]) trivial rfl
    |>.move (a := .lookup (.flight 0) 0) trivial rfl
    |>.move (a := .lookup (.caller 1) 0) trivial rfl
  refine ⟨_, _, run, ?chain, by rfl, waits_end_where_something_goes_on run rfl ?patient⟩
  case chain =>
    refine .head (@Waits.listing _ _ (.caller 1) 0 _ _ rfl rfl) ?_
    refine .head (@Waits.queue _ _ (.caller 1) 0 _ _ rfl rfl) ?_
    exact .single (.turn rfl rfl rfl)
  case patient =>
    intro m member c drops
    simp only [List.nil_append, List.cons_append, List.mem_cons, List.not_mem_nil, or_false]
      at member
    rcases member with rfl | rfl | rfl | rfl <;> cases drops

/-- What something waits for if a slot is taken to wait for the whole of what computes in it, and
not for one lookup. -/
inductive WaitsWhole (d : Desk ω) : Node → Node → Prop
  | leg {id i : Nat} {f g : Flight ω} (flight : d.flight? id = some f) (leg : i ∈ f.stage.legs)
      (there : d.flight? i = some g) (going : g.stage.result? = none) :
      WaitsWhole d (.flight id) (.flight i)
  | queue {owner : Owner} {index : Nat} {p : Provider ω} {ticket : Nat}
      (there : d.visit? owner index = some (p, .queued ticket))
      (later : d.floor.listings.isTurn p.id ticket = false) :
      WaitsWhole d owner.node (.slot p.id)
  | computing {owner : Owner} {index : Nat} {p : Provider ω} {ticket : Nat}
      {call : Pending MarketError Listing}
      (there : d.visit? owner index = some (p, .computing ticket call)) :
      WaitsWhole d (.slot p.id) owner.node
  | asking {id : Nat} {f : Flight ω} {leg : Leg} {p : Provider ω}
      {call : Pending MarketError Quotes} {queue : List (Provider ω)}
      (flight : d.flight? id = some f) (stage : f.stage = .asking leg p call queue)
      (pending : call.poll d.floor.clock.now = none) :
      WaitsWhole d (.flight id) (.quotesCall id)

def twins : List (Provider Unit) :=
  [{ promptProvider [.of "BTC" "USD"] with priority := 1 },
   { promptProvider [.of "ETH" "USD"] with id := "twin", title := "Twin" }]

def twinSetup : Setup Unit where
  registry :=
    ⟨twins, .cons (by simp [Provider.NoWorse, promptProvider]) (List.pairwise_singleton _ _),
      .cons (by simp [promptProvider]) (List.pairwise_singleton _ _)⟩
  listingTimeout := 1
  quoteTimeout := 1

/-- Two requests load the same two listings. Each computes one of them and stands in the queue for
the other, so that as a whole they wait for each other in a circle. -/
theorem whole_requests_wait_in_circle : ∃ moves d, Run twinSetup moves d ∧
    (opened moves d).floor.listings = { ttl := 1 } ∧ (∀ m ∈ moves, m.IsPatient) ∧
    Relation.TransGen (WaitsWhole d) (.flight 0) (.flight 0) := by
  have run := Run.start (s := twinSetup) promptFloor
    |>.move (a := .request { pair := .of "BTC" "USD" }) rfl rfl
    |>.move (a := .request { pair := .of "ETH" "USD" }) rfl rfl
    |>.move (a := .lookup (.flight 0) 0) trivial rfl
    |>.move (a := .lookup (.flight 0) 0) trivial rfl
    |>.move (a := .lookup (.flight 1) 0) trivial rfl
    |>.move (a := .lookup (.flight 1) 1) trivial rfl
    |>.move (a := .lookup (.flight 1) 1) trivial rfl
    |>.move (a := .lookup (.flight 0) 1) trivial rfl
  refine ⟨_, _, run, rfl, ?patient, ?circle⟩
  case patient =>
    intro m member c drops
    simp only [List.nil_append, List.cons_append, List.mem_cons, List.not_mem_nil, or_false]
      at member
    rcases member with rfl | rfl | rfl | rfl | rfl | rfl | rfl | rfl <;> cases drops
  case circle =>
    refine .head (@WaitsWhole.queue _ _ (.flight 0) 1 _ _ rfl rfl) ?_
    refine .head (@WaitsWhole.computing _ _ (.flight 1) 1 _ _ _ rfl) ?_
    refine .head (@WaitsWhole.queue _ _ (.flight 1) 0 _ _ rfl rfl) ?_
    exact .single (@WaitsWhole.computing _ _ (.flight 0) 0 _ _ _ rfl)

end Desk

end PriceDesk
