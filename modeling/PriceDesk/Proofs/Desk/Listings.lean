import PriceDesk.Proofs.Desk.Positions
import PriceDesk.Proofs.Memo.Hall

namespace PriceDesk

variable {ω : Type}

def Move.Calls (m : Move ω) (p : Provider ω) : Prop :=
  ∃ owner index l, m.after.visit? owner index = some (p, l) ∧ l.isComputing = true ∧
    ∀ q k, m.before.visit? owner index = some (q, k) → k.isComputing = false

def Move.Loads (m : Move ω) (p : Provider ω) : Prop :=
  ∃ owner index l listing, m.before.visit? owner index = some (p, l) ∧ l.isComputing = true ∧
    m.after.visit? owner index = some (p, .done (.ok listing))

namespace Desk

variable {s : Setup ω} {d e : Desk ω} {moves : List (Move ω)} {owner : Owner} {index : Nat}
  {p : Provider ω} {l : Lookup MarketError Listing}

theorem stale_of_calls (h : Coherent d) {a : Action ω} (t : Transition s d a e)
    (calls : Move.Calls ⟨d, a, e⟩ p) :
    d.floor.listings.fresh? p.id d.floor.clock.wall = none := by
  obtain ⟨owner, index, l, there, computes, idle⟩ := calls
  cases visited h t there with
  | stood here =>
    rw [idle p l here] at computes
    cases computes
  | came nobody new asked =>
    rw [Lookup.isComputing_of_quiet (Survey.quiet_of_new new)] at computes
    cases computes
  | moved action here lists moved => exact moved.stale (idle _ _ here) computes

theorem entry_of_loads (h : Coherent d) {a : Action ω} (t : Transition s d a e)
    (loads : Move.Loads ⟨d, a, e⟩ p) : ∃ listing,
      (e.floor.listings.slot p.id).entry = some ⟨listing, d.floor.clock.wall⟩ := by
  obtain ⟨owner, index, l, listing, here, computes, there⟩ := loads
  change d.visit? owner index = some (p, l) at here
  cases visited h t there with
  | stood same =>
    rw [here] at same
    cases same
    cases computes
  | came nobody new asked =>
    rw [here] at nobody
    cases nobody
  | moved action was lists moved =>
    rw [here] at was
    cases was
    exact ⟨listing, moved.entry_of_computed computes rfl⟩

theorem wall_le {a : Action ω} (t : Transition s d a e) :
    d.floor.clock.wall ≤ e.floor.clock.wall := by
  cases t with
  | requested joins => exact Nat.le_of_eq (congrArg (fun f => f.clock.wall) joins.floor.symm)
  | flightLooked flight stage looks =>
    obtain ⟨p, l, l', looks⟩ := Survey.looks_of_step looks
    exact Nat.le_of_eq (congrArg Clock.wall looks.clock.symm)
  | callerLooked caller looks =>
    obtain ⟨p, l, l', looks⟩ := Survey.looks_of_step looks
    exact Nat.le_of_eq (congrArg Clock.wall looks.clock.symm)
  | split flight stage loaded found one two =>
    exact Nat.le_of_eq (congrArg (fun f => f.clock.wall) (two.floor.trans one.floor).symm)
  | @ticked t later =>
    change _ ≤ if _ then _ else _
    split
    · exact Nat.le_refl _
    · exact Nat.le_add_right _ _
  | surveyed | ended _ _ | wentOn _ _ | collected _ _ _ | left _ | surveyLeft _ | forgot =>
    exact Nat.le_refl _

theorem Run.ttl_eq (run : Run s moves d) :
    d.floor.listings.ttl = (opened moves d).floor.listings.ttl := by
  induction run with
  | start floor => rfl
  | move run whole step ih =>
    rw [opened_append]
    exact (keeps (transition_of_step step)).ttl.trans ih

theorem Run.remembered (run : Run s moves d) {n : Move ω} (member : n ∈ moves)
    (loads : n.Loads p) :
    n.before.floor.clock.wall ≤ d.floor.clock.wall ∧
      ∃ x, (d.floor.listings.slot p.id).entry = some x ∧
        n.before.floor.clock.wall ≤ x.created := by
  induction run with
  | start floor => cases member
  | move run whole step ih =>
    have t := transition_of_step step
    have later := wall_le t
    rcases List.mem_append.mp member with earlier | last
    · obtain ⟨past, x, entry, created⟩ := ih earlier
      refine ⟨Nat.le_trans past later, ?_⟩
      rcases (keeps t).entry p.id with same | ⟨_, _, _, _, listing, _, _, _, new⟩
      · exact ⟨x, same.trans entry, created⟩
      · exact ⟨_, new, past⟩
    · cases List.mem_singleton.mp last
      obtain ⟨listing, entry⟩ := entry_of_loads run.coherent t loads
      exact ⟨later, _, entry, Nat.le_refl _⟩

/-- What a move does with the listings of providers, after the moves of a run. -/
structure Spares (moves : List (Move ω)) (m : Move ω) : Prop where
  oneEach : m.after.visits.Pairwise fun v w =>
    v.1 = w.1 → v.2.isComputing = true → w.2.isComputing = false
  spaced : ∀ p q n, m.Calls p → n ∈ moves → n.Loads q → q.id = p.id →
    (opened moves m.before).floor.listings.ttl ≤
      m.before.floor.clock.wall - n.before.floor.clock.wall

theorem Run.spares (run : Run s moves d) {ttl : Duration}
    (fresh : (opened moves d).floor.listings = { ttl }) {a : Action ω} (whole : a.IsPublic)
    (step : step s d a = some e) : Spares moves ⟨d, a, e⟩ where
  oneEach := by
    have next := run.move whole step
    have fresh' : (opened (moves ++ [⟨d, a, e⟩]) e).floor.listings = { ttl } := by
      rw [opened_append]
      exact fresh
    have orderly := next.orderly fresh'
    exact orderly.pairwise.imp fun each same => each (beq_iff_eq.mpr same)
  spaced := by
    intro p q n calls member loads same
    have stale := stale_of_calls run.coherent (transition_of_step step) calls
    obtain ⟨_, x, entry, created⟩ := run.remembered member loads
    rw [same] at entry
    have aged := Memo.stale_of_fresh?_eq_none stale entry
    rw [run.ttl_eq] at aged
    exact Nat.le_trans aged (Nat.sub_le_sub_left created _)

/-- Every memo table guards its values and computations, whatever its callers do, and hence the desk
loads the listing of a provider once at a time and once in a lifetime. -/
theorem computations_are_guarded :
    (∀ {κ ε ν σ : Type} [BEq κ] [EquivBEq κ] (ttl : Duration) (clock : Clock) (world : σ)
      (events : List (Memo.Hall.Event κ ε ν σ)) (event : Memo.Hall.Event κ ε ν σ),
      (Memo.Hall.after events { memo := { ttl }, clock, world }).Guarded ttl event) ∧
    ∀ {ω : Type} {s : Setup ω} {moves : List (Move ω)} {d e : Desk ω} {a : Action ω}
      {ttl : Duration}, Run s moves d → (opened moves d).floor.listings = { ttl } → a.IsPublic →
      step s d a = some e → Spares moves ⟨d, a, e⟩ := by
  constructor
  · intro κ ε ν σ _ _ ttl clock world events event
    have kept := (Memo.Hall.Kept.fresh ttl clock world).after events
    exact kept.guarded event
  · intro ω s moves d e a ttl run fresh whole step
    exact run.spares fresh whole step

/-- Two callers for one key, and the first computes; and a listing that is loaded again when it has
expired. -/
theorem prompt_listing_is_loaded_again :
    (Memo.Hall.after (ε := Unit)
      [.arrive "key" fun _ _ => (⟨some 1, .ok 5, none⟩, ()),
       .arrive "key" fun _ _ => (⟨some 1, .ok 6, none⟩, ()),
       .move 0, .move 1, .move 0, .pass 1 1 ()]
      { memo := { ttl := 2 }, clock := {}, world := () }).Guarded 2 (.move 0) ∧
    ∃ moves d e, Run (promptSetup [.of "BTC" "USD"]) moves d ∧
      step (promptSetup [.of "BTC" "USD"]) d (.lookup (.caller 1) 0) = some e ∧
      Move.Calls ⟨d, .lookup (.caller 1) 0, e⟩ (promptProvider [.of "BTC" "USD"]) ∧
      (∃ n ∈ moves, n.Loads (promptProvider [.of "BTC" "USD"])) ∧
      Spares moves ⟨d, .lookup (.caller 1) 0, e⟩ := by
  have run := Run.start (s := promptSetup [.of "BTC" "USD"])
      { promptFloor with clock := { rehearsed := false } }
    |>.move (a := .survey [promptProvider [.of "BTC" "USD"]]) trivial rfl
    |>.move (a := .lookup (.caller 0) 0) trivial rfl
    |>.move (a := .lookup (.caller 0) 0) trivial rfl
    |>.move (a := .lookup (.caller 0) 0) trivial rfl
    |>.move (a := .tick 1) trivial rfl
    |>.move (a := .survey [promptProvider [.of "BTC" "USD"]]) trivial rfl
    |>.move (a := .lookup (.caller 1) 0) trivial rfl
  refine ⟨computations_are_guarded.1 2 {} () _ _, _, _, _, run, by rfl, ?calls, ?loads,
    computations_are_guarded.2 run rfl trivial rfl⟩
  case calls =>
    refine ⟨.caller 1, 0, _, rfl, rfl, ?_⟩
    intro q k before
    cases before
    rfl
  case loads =>
    refine ⟨_, .tail _ (.tail _ (.tail _ (.head _))), .caller 0, 0, _, _, rfl, rfl, rfl⟩

end Desk

end PriceDesk
