import PriceDesk.Proofs.Desk.Delivery

namespace PriceDesk

variable {ω : Type}

/-- With the move the flight joins or starts a flight for each leg and begins to wait for both. -/
structure Move.Splits (s : Setup ω) (m : Move ω) (f : Flight ω) (first second : Leg)
    (i j : Nat) : Prop where
  there : f ∈ m.before.flights
  joins : ∃ d e, Desk.Joining s m.before (Desk.firstKey f.key first) (some first) i d ∧
    Desk.Joining s d (Desk.secondKey second) (some second) j e ∧
    m.after = e.setStage f.id (.combining i j)

/-- Whether one of these moves ended the flight of a leg with this result, which was published and
remembered then. -/
def Reported (moves : List (Move ω)) (d : Desk ω) (id : Nat) (key : RequestKey)
    (r : PriceResult) : Prop :=
  ∃ m ∈ moves, ∃ f, f.id = id ∧ (f.key == key) = true ∧ m.Reports f r ∧
    ⟨f.key, r⟩ ∈ d.feed.completions

structure Yields (pair : AssetPair) (one two r : PriceResult) : Prop where
  value : r = do Desk.combine pair (← one) (← two)
  ok_iff : (∃ lp, r = .ok lp) ↔ ∃ first second price, one = .ok first ∧ two = .ok second ∧
    first.price.mul? second.price = some price
  error_iff : ∀ failure, r = .error failure ↔ one = .error failure ∨
    (∃ first, one = .ok first ∧ two = .error failure) ∨
    ∃ first second, one = .ok first ∧ two = .ok second ∧
      first.price.mul? second.price = none ∧
      failure = .invalidPrice pair.render s!"overflow combining legs via {first.pair.asset2}"

theorem yields_combine (pair : AssetPair) (one two : PriceResult) :
    Yields pair one two (do Desk.combine pair (← one) (← two)) := by
  cases one with
  | error failure => constructor <;> simp [bind, Except.bind]
  | ok first =>
    cases two with
    | error failure => constructor <;> simp [bind, Except.bind]
    | ok second =>
      cases product : first.price.mul? second.price with
      | some price => constructor <;> simp [bind, Except.bind, Desk.combine, product]
      | none => constructor <;> simp [bind, Except.bind, Desk.combine, product, eq_comm]

/-- How a move ends a request that waits for two legs: both have been reported before, and their
results yield its own. -/
def Concluded (moves : List (Move ω)) (f : Flight ω) (first second : Leg) (i j : Nat)
    (n : Move ω) (r : PriceResult) : Prop :=
  ∃ earlier later one two, moves = earlier ++ n :: later ∧
    Reported earlier n.before i (Desk.firstKey f.key first) one ∧
    Reported earlier n.before j (Desk.secondKey second) two ∧ Yields f.key.pair one two r

/-- What becomes of a flight whose search found two legs, after the moves of a run. -/
structure Converted (s : Setup ω) (moves : List (Move ω)) (d : Desk ω) (m : Move ω) (f : Flight ω)
    (first second : Leg) (i j : Nat) : Prop where
  splits : m.Splits s f first second i j
  apart : i ≠ j
  stays : Desk.Settled d f.id fun g =>
    g.key = f.key ∧ (g.stage = .combining i j ∨ ∃ r, g.stage = .done r)
  ended : ∀ n ∈ moves, ∀ g r, n.Completes g r → g.id = f.id →
    Concluded moves f first second i j n r
  goesOn : ∀ ttl, (Desk.opened moves d).floor.listings = { ttl } → (∀ n ∈ moves, n.IsPatient) →
    ∃ moves' e n g r, Serves s moves d moves' e ∧ n ∈ moves' ∧ n.Completes g r ∧ g.id = f.id ∧
      Concluded moves' f first second i j n r
  bounded : ∃ bound, ∀ moves' e, Serves s moves d moves' e →
    moves'.countP (·.action.isStep) ≤ bound

theorem Stage.Follows.of_combining {x y : Stage ω} {i j : Nat} (follows : Stage.Follows x y)
    (now : x = .combining i j ∨ ∃ r, x = .done r) : y = .combining i j ∨ ∃ r, y = .done r := by
  rcases now with rfl | ⟨r, done⟩
  · cases follows with
    | ends _ => exact .inr ⟨_, rfl⟩
  · exact .inr ⟨r, Desk.done_of_follows follows done⟩

namespace Desk

variable {s : Setup ω} {d e : Desk ω} {moves : List (Move ω)} {m : Move ω} {f : Flight ω}
  {first second : Leg} {i j : Nat}

theorem splits_of_finds (h : Coherent d) {a : Action ω} (t : Transition s d a e)
    (there : f ∈ d.flights)
    (finds : Move.Finds s ⟨d, a, e⟩ f.id f.key (some (.converted first second))) :
    ∃ i j, Move.Splits s ⟨d, a, e⟩ f first second i j := by
  obtain ⟨action, g, survey, listings, diagnostics, flight, _, stage, loaded, found⟩ := finds
  cases action
  cases (h.flight?_of_mem there).symm.trans flight
  cases dispatched_of_search t flight stage loaded found with
  | converted one two => exact ⟨_, _, there, _, _, one, two, rfl⟩

section

variable (splits : m.Splits s f first second i j) (h : Coherent m.before)

include splits h

theorem waits_of_splits : { f with stage := .combining i j } ∈ m.after.flights := by
  obtain ⟨there, d₁, d₂, one, two, after⟩ := splits
  have coherent := ((h.joining one).1.joining two).1
  rw [after]
  exact coherent.restaged (two.mem (one.mem there)) (.combining i j)

theorem keyed_of_splits :
    Keyed m.after i (firstKey f.key first) ∧ Keyed m.after j (secondKey second) := by
  obtain ⟨_, d₁, d₂, one, two, after⟩ := splits
  rw [after]
  exact keyed_split h one two _ _

theorem apart_of_splits : i ≠ j := by
  obtain ⟨isFirst, isSecond⟩ := keyed_of_splits splits h
  obtain ⟨_, d₁, d₂, one, two, after⟩ := splits
  obtain ⟨coherent, g, member, number⟩ := h.joining one
  have coherent' := (coherent.joining two).1
  obtain ⟨g', member', rfl⟩ := coherent'.there_setStage f.id (.combining i j)
    ⟨g, two.mem member, number⟩
  rw [← after] at member'
  intro same
  -- One flight for both would be one of a first and of a second leg.
  have firstRole := (RequestKey.beq_iff.mp (isFirst.2 g' member' rfl)).2.1
  have secondRole := (RequestKey.beq_iff.mp (isSecond.2 g' member' same)).2.1
  cases firstRole.symm.trans secondRole

end

theorem Run.reported_of_done (run : Run s moves d) {id : Nat} {key : RequestKey} {g : Flight ω}
    {r : PriceResult} (keyed : Keyed d id key) (found : d.flight? id = some g)
    (done : g.stage = .done r) : Reported moves d id key r := by
  have there := mem_of_flight? found
  have number := id_of_flight? found
  obtain ⟨n, among, g', number', key', completes⟩ := run.completed_of_done there done
  obtain ⟨reports, published⟩ := run.reported among completes
  exact ⟨n, among, g', number'.trans number, key' ▸ keyed.2 g there number, reports, published⟩

section

variable (run : Run s moves d) (member : m ∈ moves) (splits : m.Splits s f first second i j)

include run member splits

theorem Run.stays_combining : Settled d f.id fun g =>
    g.key = f.key ∧ (g.stage = .combining i j ∨ ∃ r, g.stage = .done r) := by
  obtain ⟨h, _, t⟩ := run.move_of_mem member
  have waits := waits_of_splits splits h
  exact run.settled member (settled_of_mem (h.move t) waits ⟨rfl, .inl rfl⟩)
    fun g g' key follows ⟨own, now⟩ => ⟨key.symm.trans own, follows.of_combining now⟩

theorem Run.concluded {n : Move ω} (other : n ∈ moves) {g : Flight ω} {r : PriceResult}
    (completes : n.Completes g r) (same : g.id = f.id) :
    Concluded moves f first second i j n r := by
  obtain ⟨h, _, _⟩ := run.move_of_mem member
  obtain ⟨h', _, t⟩ := run.move_of_mem other
  obtain ⟨earlier, later, all, sooner⟩ :=
    run.completed_later member other (waits_of_splits splits h) rfl completes same
  -- What was settled when the legs were taken up is read off the desk at which the flight ends.
  have run' : Run s earlier n.before := (all ▸ run).cut.1
  obtain ⟨isFirst, isSecond⟩ := keyed_of_splits splits h
  have firstKeyed : Keyed n.before i (firstKey f.key first) :=
    run'.settled sooner isFirst fun _ _ key _ was => key ▸ was
  have secondKeyed : Keyed n.before j (secondKey second) :=
    run'.settled sooner isSecond fun _ _ key _ was => key ▸ was
  have ending := (completed_move h' t completes).2.1
  obtain ⟨own, stage | ⟨q, done⟩⟩ := (run'.stays_combining sooner splits).2 g completes.1 same
  · obtain ⟨g₁, g₂, one, two, firstFlight, firstDone, secondFlight, secondDone, rfl⟩ :=
      ending.of_combining stage
    rw [own]
    exact ⟨earlier, later, one, two, all, run'.reported_of_done firstKeyed firstFlight firstDone,
      run'.reported_of_done secondKeyed secondFlight secondDone, yields_combine _ _ _⟩
  · have going := completes.2.1
    rw [done] at going
    cases going

theorem Run.awaited_or_completed (patient : ∀ n ∈ moves, n.IsPatient)
    (whole : f.key.isLeg = false) :
    (∃ c, (c, Caller.awaiting f.id) ∈ d.callers) ∨
      ∃ n ∈ moves, ∃ g r, g.id = f.id ∧ n.Completes g r := by
  obtain ⟨h, _, t⟩ := run.move_of_mem member
  have waits := waits_of_splits splits h
  have entry : (f.key, f.id) ∈ m.after.inFlight :=
    ((h.move t).underWay _ _).mpr ⟨_, waits, rfl, rfl, rfl⟩
  rcases run.underWay_or_completed member entry with still | completed
  · obtain ⟨g, there, number, key, going⟩ := (run.coherent.underWay _ _).mp still
    have awaited := run.awaited_of_patient patient there going
    rw [← number]
    exact .inl (run.awaited_of_whole there (key ▸ whole) awaited)
  · exact .inr completed

theorem Run.concludes {ttl : Duration} (fresh : (opened moves d).floor.listings = { ttl })
    (patient : ∀ n ∈ moves, n.IsPatient) (whole : f.key.isLeg = false) :
    ∃ moves' e n g r, Serves s moves d moves' e ∧ n ∈ moves' ∧ n.Completes g r ∧ g.id = f.id ∧
      Concluded moves' f first second i j n r := by
  rcases run.awaited_or_completed member splits patient whole with
    ⟨c, waits⟩ | ⟨n, among, g, r, own, completes⟩
  · obtain ⟨moves', e, e', serves, still, collects⟩ := run.collects fresh patient waits
    have run' := serves.run run
    cases transition_of_step collects with
    | @collected c id g r caller flight done =>
      cases (run'.coherent.caller?_of_mem still).symm.trans caller
      obtain ⟨n, among, g', number, _, completes⟩ :=
        run'.completed_of_done (mem_of_flight? flight) done
      have own := number.trans (id_of_flight? flight)
      exact ⟨moves', e, n, g', r, serves, among, completes, own,
        run'.concluded (serves.subset member) splits among completes own⟩
  · exact ⟨moves, d, n, g, r, .refl, among, completes, own,
      run.concluded member splits among completes own⟩

end

/-- A request that is converted ends after both of its legs and with what their results yield: in
every run, however the legs are shared and whichever ends first. -/
theorem conversion_ends_after_both_legs (run : Run s moves d) (member : m ∈ moves)
    (there : f ∈ m.before.flights)
    (finds : m.Finds s f.id f.key (some (.converted first second))) :
    ∃ i j, Converted s moves d m f first second i j := by
  obtain ⟨h, _, t⟩ := run.move_of_mem member
  obtain ⟨i, j, splits⟩ := splits_of_finds h t there finds
  have whole : f.key.isLeg = false := by
    obtain ⟨earlier, run', _⟩ := run.before member
    obtain ⟨_, g, survey, _, _, flight, _, stage, _⟩ := finds
    cases (h.flight?_of_mem there).symm.trans flight
    exact run'.whole_of_surveying there stage
  exact ⟨i, j, {
    splits
    apart := apart_of_splits splits h
    stays := run.stays_combining member splits
    ended := fun n other g r => run.concluded member splits other
    goesOn := fun ttl fresh patient => run.concludes member splits fresh patient whole
    bounded := ⟨moves.countP (·.action.isStep) + d.work s, fun moves' e serves =>
      Nat.le_trans (Nat.le_add_right _ _) (run.steps_le serves)⟩ }⟩

def halfQuoter : Provider Unit :=
  { promptProvider [.of "BTC" "USD", .of "EUR" "USD"] with
    pricing := (promptProvider [.of "EUR" "USD"]).pricing }

def halfSetup : Setup Unit where
  registry := ⟨[halfQuoter], List.pairwise_singleton _ _, List.pairwise_singleton _ _⟩
  listingTimeout := 1
  quoteTimeout := 1

/-- Somebody asks for bitcoin in euros: the first leg fails, the second is priced, and then the
request fails too. -/
theorem half_run : ∃ moves d m f first second n g failure, Run halfSetup moves d ∧ m ∈ moves ∧
    f ∈ m.before.flights ∧ m.Finds halfSetup f.id f.key (some (.converted first second)) ∧
    (∃ leg ∈ d.flights, leg.key = secondKey second ∧ ∃ lp, leg.stage = .done (.ok lp)) ∧
    n ∈ moves ∧ n.Completes g (.error failure) ∧ g.id = f.id := by
  have run := Run.start (s := halfSetup) promptFloor
    |>.move (a := .request { pair := .of "BTC" "EUR" }) rfl rfl
    |>.move (a := .lookup (.flight 0) 0) trivial rfl
    |>.move (a := .lookup (.flight 0) 0) trivial rfl
    |>.move (a := .lookup (.flight 0) 0) trivial rfl
    |>.move (a := .advance 0) trivial rfl
    |>.move (a := .advance 1) trivial rfl
    |>.move (a := .advance 1) trivial rfl
    |>.move (a := .advance 1) trivial rfl
    |>.move (a := .advance 2) trivial rfl
    |>.move (a := .advance 2) trivial rfl
    |>.move (a := .advance 0) trivial rfl
  exact ⟨_, _, _, _, _, _, _, ⟨0, { pair := .of "BTC" "EUR" }, .combining 1 2⟩, _, run,
    .tail _ (.tail _ (.tail _ (.tail _ (.head _)))), .head _,
    ⟨rfl, _, _, _, _, rfl, rfl, rfl, rfl, rfl⟩,
    ⟨_, .head _, rfl, _, rfl⟩, List.mem_append_right _ List.mem_cons_self,
    ⟨.tail _ (.tail _ (.head _)), rfl, _, .tail _ (.tail _ (.head _)), rfl, rfl⟩, rfl⟩

theorem failed_leg_leaves_the_other : ∃ moves d m f first second n g failure,
    Run halfSetup moves d ∧ n ∈ moves ∧ n.Completes g (.error failure) ∧ g.id = f.id ∧
      (∃ leg ∈ d.flights, leg.key = secondKey second ∧ ∃ lp, leg.stage = .done (.ok lp)) ∧
      ∃ i j, Converted halfSetup moves d m f first second i j := by
  obtain ⟨moves, d, m, f, first, second, n, g, failure, run, member, there, finds, priced, last,
    completes, own⟩ := half_run
  exact ⟨moves, d, m, f, first, second, n, g, failure, run, last, completes, own, priced,
    conversion_ends_after_both_legs run member there finds⟩

end Desk

end PriceDesk
