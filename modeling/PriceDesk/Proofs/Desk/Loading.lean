import Mathlib.Data.List.Forall2
import PriceDesk.Desk.Aggregate
import PriceDesk.Proofs.Memo.Settling

namespace PriceDesk

namespace Schedule

variable {σ : Type} {sched : Schedule σ} {x y : σ}

theorem run_of_moved (fuel : Nat) (polled : sched.round x = (true, y)) :
    sched.run (fuel + 1) x = sched.run fuel y := by
  simp only [run, polled]

theorem run_of_woken (fuel : Nat) {t : Instant} (polled : sched.round x = (false, y))
    (woken : sched.next? y = some t) :
    sched.run (fuel + 1) x = sched.run fuel (sched.tick t y) := by
  simp only [run, polled, woken]

theorem run_of_rest (fuel : Nat) (polled : sched.round x = (false, y))
    (rests : sched.next? y = none) : sched.run (fuel + 1) x = y := by
  simp only [run, polled, rests]

end Schedule

variable {ω : Type}

theorem Floor.together_fst {α : Type} (f : Floor ω)
    (calls : List (Instant → ω → Pending MarketError α × ω)) :
    (f.together calls).1 =
      (beginAll f.clock.now f.world calls).1.map (·.conclude f.clock.now |>.2) := by
  simp only [together, List.map_map]
  rfl

namespace Survey

def tend (timeout : Duration) (f : Floor ω) (p : Provider ω) (l : Lookup MarketError Listing) :
    Bool × Lookup MarketError Listing × Memo String Listing × ω :=
  match p.listing with
  | none => (false, l, f.listings, f.world)
  | some call =>
    Lookup.settle (call.invoke p.id "get_asset_pairs" timeout f.clock.now) p.id f.clock f.listings
      f.world l

def round (timeout : Duration) : Survey ω → Floor ω → Bool × Survey ω × Floor ω
  | [], f => (false, [], f)
  | (p, l) :: rest, f =>
    let (first, l, listings, world) := tend timeout f p l
    let (moved, rest, f) := round timeout rest { f with world, listings }
    (first || moved, (p, l) :: rest, f)

def loading (timeout : Duration) : Schedule (Survey ω × Floor ω) where
  round x := round timeout x.1 x.2
  wakes x := wakes x.1
  now x := x.2.clock.now
  tick t x :=
    if x.2.clock.now < t then (x.1, { x.2 with clock := x.2.clock.advance t }) else x

section Attends

variable {timeout : Duration} {calls : List (Pending MarketError Listing)} {start now : Instant}
  {survey : Survey ω} {f : Floor ω}

/-- Whether a provider's lookup follows a call; there is nothing to wait for without a listing. -/
structure Attends (start now : Instant) (call : Pending MarketError Listing)
    (x : Provider ω × Lookup MarketError Listing) : Prop where
  follows : x.2.Follows call start now
  listed : x.2.result? = none → x.1.listing.isSome

def waiting (survey : Survey ω) : Nat := survey.countP (·.2.result?.isNone)

theorem settles_tend (timeout : Duration) {call : Pending MarketError Listing} {p : Provider ω}
    {l : Lookup MarketError Listing} (attends : Attends start f.clock.now call (p, l))
    (since : start ≤ f.clock.now) :
    Lookup.Settles call start f.clock.now f.world l (tend timeout f p l) := by
  unfold tend
  cases listed : p.listing with
  | some ask => exact Lookup.settle_follows attends.follows since
  | none =>
    refine ⟨attends.follows, rfl, nofun, fun _ => ⟨rfl, fun waits => ?_⟩⟩
    have := attends.listed waits
    simp [listed] at this

abbrev Sleeps (calls : List (Pending MarketError Listing)) (start now : Instant)
    (survey : Survey ω) : Prop :=
  List.Forall₂ (fun call x => x.2.result? = none →
    now < (call.conclude start).1 ∧ (call.conclude start).1 ∈ x.2.wakes) calls survey

structure Rounds (calls : List (Pending MarketError Listing)) (start : Instant)
    (survey : Survey ω) (f : Floor ω) (after : Bool × Survey ω × Floor ω) : Prop where
  attends : List.Forall₂ (Attends start f.clock.now) calls after.2.1
  world : after.2.2.world = f.world
  clock : after.2.2.clock = f.clock
  moves : after.1 = true → waiting after.2.1 < waiting survey
  rests : after.1 = false → after.2.1 = survey ∧
    Sleeps calls start f.clock.now survey

theorem waiting_cons (x : Provider ω × Lookup MarketError Listing) (survey : Survey ω) :
    waiting (x :: survey) = waiting survey + if x.2.result?.isNone then 1 else 0 := by
  simp [waiting, List.countP_cons]

theorem Rounds.waiting_le {after : Bool × Survey ω × Floor ω}
    (rounds : Rounds calls start survey f after) : waiting after.2.1 ≤ waiting survey := by
  cases moved : after.1 with
  | true => exact Nat.le_of_lt (rounds.moves moved)
  | false => exact Nat.le_of_eq (congrArg waiting (rounds.rests moved).1)

theorem rounds_round (timeout : Duration) (present : f.clock.now = now) (since : start ≤ now)
    (attend : List.Forall₂ (Attends start now) calls survey) :
    Rounds calls start survey f (round timeout survey f) := by
  induction attend generalizing f with
  | nil => exact ⟨.nil, rfl, rfl, nofun, fun _ => ⟨rfl, .nil⟩⟩
  | @cons call x calls survey first rest ih =>
    subst present
    obtain ⟨p, l⟩ := x
    have own := settles_tend timeout first since
    unfold round
    generalize tend timeout f p l = tended at own ⊢
    obtain ⟨took, l', listings, world⟩ := tended
    dsimp only
    have others := ih (f := { f with world, listings }) rfl
    have fewer := others.waiting_le
    generalize round timeout survey { f with world, listings } = rounded at others fewer ⊢
    obtain ⟨moved, rest', f'⟩ := rounded
    have stays : took = false → l' = l := fun still => (own.waits still).1
    refine ⟨.cons ⟨own.follows, fun waits => ?_⟩ others.attends, others.world.trans own.world,
      others.clock, fun some => ?_, fun none => ?_⟩
    · cases took with
      | false =>
        rw [stays rfl] at waits
        exact first.listed waits
      | true =>
        have there := (own.took rfl).2
        simp only at waits there
        simp [waits] at there
    · simp only [waiting_cons]
      cases took with
      | true =>
        obtain ⟨before, there⟩ := own.took rfl
        simp only at before there fewer
        obtain ⟨r, done⟩ := Option.isSome_iff_exists.mp there
        simp only [before, done, Option.isNone_none, Option.isNone_some, if_true]
        simp only [Bool.false_eq_true, if_false]
        omega
      | false =>
        have less := others.moves (by simpa using some)
        simp only at less
        rw [stays rfl]
        omega
    · obtain ⟨still, idle⟩ := Bool.or_eq_false_iff.mp none
      obtain ⟨same, later⟩ := others.rests idle
      simp only at same
      refine ⟨?_, .cons (own.waits still).2 later⟩
      show (p, l') :: rest' = (p, l) :: survey
      rw [stays still, same]

abbrev Done (calls : List (Pending MarketError Listing)) (start : Instant) (survey : Survey ω) :
    Prop :=
  List.Forall₂ (fun call x => x.2 = .done (call.conclude start).2) calls survey

theorem Done.listings (late : Provider ω → Except MarketError Listing)
    (done : Done calls start survey) :
    (survey.map fun (p, l) => l.result?.getD (late p)) = calls.map (·.conclude start |>.2) := by
  induction done with
  | nil => rfl
  | cons first rest ih =>
    simp only [List.map_cons, first, Lookup.result?, Option.getD_some]
    exact congrArg _ ih

theorem done_of_attends (attend : List.Forall₂ (Attends start now) calls survey)
    (none : waiting survey = 0) : Done calls start survey := by
  induction attend with
  | nil => exact .nil
  | @cons call x calls survey first rest ih =>
    rw [waiting_cons] at none
    refine .cons ?_ (ih (by omega))
    obtain ⟨p, l⟩ := x
    cases first.follows with
    | has => rfl
    | awaits ticket ends due => simp [Lookup.result?] at none

theorem wakes_cons (x : Provider ω × Lookup MarketError Listing) (survey : Survey ω) :
    wakes (x :: survey) = x.2.wakes ++ wakes survey := rfl

theorem wakes_of_done (done : Done calls start survey) : wakes survey = [] := by
  induction done with
  | nil => rfl
  | cons first rest ih =>
    rw [wakes_cons, first, ih]
    rfl

theorem exists_wake (later : Sleeps calls start now survey) (some : 0 < waiting survey) :
    ∃ t ∈ wakes survey, now < t := by
  induction later with
  | nil => simp [waiting] at some
  | @cons call x calls survey first rest ih =>
    rw [wakes_cons]
    cases waits : x.2.result? with
    | none =>
      obtain ⟨after, wakes⟩ := first waits
      exact ⟨_, List.mem_append_left _ wakes, after⟩
    | some r =>
      rw [waiting_cons, waits] at some
      obtain ⟨t, wakes, after⟩ := ih (by simpa using some)
      exact ⟨t, List.mem_append_right _ wakes, after⟩

theorem exists_first_wake (later : Sleeps calls start now survey) (some : 0 < waiting survey) :
    ∃ t, ((wakes survey).filter (now < ·)).min? = .some t ∧ t ∈ wakes survey ∧ now < t ∧
      ∀ u ∈ wakes survey, now < u → t ≤ u := by
  obtain ⟨u, woken, after⟩ := exists_wake later some
  have member {u : Instant} (woken : u ∈ wakes survey) (after : now < u) :
      u ∈ (wakes survey).filter (now < ·) :=
    List.mem_filter.mpr ⟨woken, decide_eq_true after⟩
  obtain ⟨t, first⟩ := Option.isSome_iff_exists.mp
    (List.isSome_min?_of_ne_nil (List.ne_nil_of_mem (member woken after)))
  obtain ⟨among, least⟩ := List.min?_eq_some_iff.mp first
  obtain ⟨wakes, after⟩ := List.mem_filter.mp among
  exact ⟨t, first, wakes, of_decide_eq_true after,
    fun u woken after => least u (member woken after)⟩

theorem attends_tick {t : Instant} (attend : List.Forall₂ (Attends start now) calls survey)
    (later : Sleeps calls start now survey)
    (least : ∀ u ∈ wakes survey, now < u → t ≤ u) :
    List.Forall₂ (Attends start t) calls survey := by
  induction attend with
  | nil => exact .nil
  | @cons call x calls survey first rest ih =>
    rw [wakes_cons] at least
    obtain ⟨own, others⟩ := List.forall₂_cons.mp later
    refine .cons ⟨?_, first.listed⟩
      (ih others fun u wakes => least u (List.mem_append_right _ wakes))
    obtain ⟨p, l⟩ := x
    cases first.follows with
    | has => exact .has
    | awaits ticket ends due =>
      obtain ⟨after, wakes⟩ := own rfl
      exact .awaits ticket ends (least _ (List.mem_append_left _ wakes) after)

theorem not_rests_of_wake {t : Instant} (since : start ≤ t)
    (attend : List.Forall₂ (Attends start t) calls survey) (wakes : t ∈ wakes survey) :
    ¬ Sleeps calls start t survey := by
  intro later
  induction attend with
  | nil => cases wakes
  | @cons call x calls survey first rest ih =>
    obtain ⟨own, others⟩ := List.forall₂_cons.mp later
    rw [wakes_cons] at wakes
    rcases List.mem_append.mp wakes with here | behind
    · obtain ⟨p, l⟩ := x
      cases first.follows with
      | has => cases here
      | awaits ticket ends due =>
        obtain ⟨after, -⟩ := own rfl
        exact Nat.not_lt.mpr (Pending.conclude_le since here) after
    · exact ih behind others

theorem run_of_done (fuel : Nat) (present : f.clock.now = now) (since : start ≤ now)
    (attend : List.Forall₂ (Attends start now) calls survey) (none : waiting survey = 0) :
    Done calls start ((loading timeout).run fuel (survey, f)).1 ∧
      ((loading timeout).run fuel (survey, f)).2.world = f.world := by
  have done := done_of_attends attend none
  cases fuel with
  | zero => exact ⟨done, rfl⟩
  | succ fuel =>
    have rounds := rounds_round timeout present since attend
    cases polled : round timeout survey f with
    | mk moved y =>
      rw [polled] at rounds
      cases moved with
      | true =>
        have less := rounds.moves rfl
        omega
      | false =>
        have same : y.1 = survey := (rounds.rests rfl).1
        have quiet : (loading timeout).next? y = Option.none := by
          show ((wakes y.1).filter _).min? = Option.none
          rw [same, wakes_of_done done]
          rfl
        rw [Schedule.run_of_rest fuel polled quiet, same]
        exact ⟨done, rounds.world⟩

theorem moves_of_wake (present : f.clock.now = now) (since : start ≤ now)
    (attend : List.Forall₂ (Attends start now) calls survey) (wakes : now ∈ wakes survey) :
    (round timeout survey f).1 = true := by
  cases moves : (round timeout survey f).1 with
  | true => rfl
  | false =>
    have rests := (rounds_round timeout present since attend).rests moves
    rw [present] at rests
    exact absurd rests.2 (not_rests_of_wake since attend wakes)

theorem exists_woken (present : f.clock.now = now) (since : start ≤ now)
    (attend : List.Forall₂ (Attends start now) calls survey)
    (still : (round timeout survey f).1 = false) (some : 0 < waiting survey) :
    ∃ g : Floor ω, g.world = f.world ∧ start ≤ g.clock.now ∧
      List.Forall₂ (Attends start g.clock.now) calls survey ∧ (round timeout survey g).1 = true ∧
      ∀ fuel, (loading timeout).run (fuel + 1) (survey, f) =
        (loading timeout).run fuel (survey, g) := by
  have rounds := rounds_round timeout present since attend
  obtain ⟨same, later⟩ := rounds.rests still
  have clock : (round timeout survey f).2.2.clock.now = now := by rw [rounds.clock, present]
  rw [present] at later
  obtain ⟨t, first, wakes, after, least⟩ := exists_first_wake later some
  have polled : (loading timeout).round (survey, f) = (false, (round timeout survey f).2) :=
    Prod.ext still rfl
  have next : (loading timeout).next? (round timeout survey f).2 = .some t := by
    show ((Survey.wakes (round timeout survey f).2.1).filter
      ((round timeout survey f).2.2.clock.now < ·)).min? = .some t
    rw [same, clock, first]
  let g : Floor ω :=
    { (round timeout survey f).2.2 with clock := (round timeout survey f).2.2.clock.advance t }
  have ticked : (loading timeout).tick t (round timeout survey f).2 = (survey, g) := by
    simp only [loading, clock, after, if_true, same, g]
  have struck : g.clock.now = t := by
    show max (round timeout survey f).2.2.clock.now t = t
    rw [clock]
    exact Nat.max_eq_right (Nat.le_of_lt after)
  have since' : start ≤ t := Nat.le_trans since (Nat.le_of_lt after)
  have stand := attends_tick attend later least
  refine ⟨g, rounds.world, struck ▸ since', struck ▸ stand,
    moves_of_wake struck since' stand wakes, fun fuel => ?_⟩
  rw [Schedule.run_of_woken fuel polled next, ticked]

theorem run_attends (n : Nat) {fuel : Nat} (since : start ≤ f.clock.now)
    (attend : List.Forall₂ (Attends start f.clock.now) calls survey) (few : waiting survey ≤ n)
    (enough : 2 * n ≤ fuel) :
    Done calls start ((loading timeout).run fuel (survey, f)).1 ∧
      ((loading timeout).run fuel (survey, f)).2.world = f.world := by
  induction n generalizing fuel survey f with
  | zero => exact run_of_done fuel rfl since attend (by omega)
  | succ n ih =>
    by_cases none : waiting survey = 0
    · exact run_of_done fuel rfl since attend none
    obtain ⟨fuel, rfl⟩ : ∃ k, fuel = k + 2 := ⟨fuel - 2, by omega⟩
    -- A round that changes something leaves fewer lookups, and the induction goes on.
    have step {g : Floor ω} {fuel : Nat} (after : start ≤ g.clock.now)
        (stand : List.Forall₂ (Attends start g.clock.now) calls survey)
        (moves : (round timeout survey g).1 = true) (enough : 2 * n ≤ fuel) :
        Done calls start ((loading timeout).run (fuel + 1) (survey, g)).1 ∧
          ((loading timeout).run (fuel + 1) (survey, g)).2.world = g.world := by
      have rounds := rounds_round timeout rfl after stand
      have less := rounds.moves moves
      have polled : (loading timeout).round (survey, g) = (true, (round timeout survey g).2) :=
        Prod.ext moves rfl
      have stand' := rounds.attends
      rw [← rounds.clock] at after stand'
      rw [Schedule.run_of_moved fuel polled, ← rounds.world]
      exact ih after stand' (Nat.le_of_lt_succ (Nat.lt_of_lt_of_le less few)) enough
    cases moves : (round timeout survey f).1 with
    | true => exact step since attend moves (by omega)
    | false =>
      obtain ⟨g, world, after, stand, moves, passes⟩ :=
        exists_woken rfl since attend moves (by omega)
      rw [passes, ← world]
      exact step after stand moves (by omega)

end Attends

section Begin

variable {timeout : Duration}

theorem wakes_invoke (call : Call ω Listing) (provider method : String) (now : Instant) (w : ω) :
    (call.invoke provider method timeout now w).1.wakes ≠ [] := by
  simp [Call.invoke, Pending.wakes]

/-- What a provider brings that is asked for its listing; one that has none fails at once. -/
def listingCall (timeout : Duration) (p : Provider ω) (now : Instant) (w : ω) :
    Pending MarketError Listing × ω :=
  match p.listing with
  | none =>
    ({ readyAt := some now,
       outcome := .error (.noProviderForNetwork p.network.name Capability.assetPairs.name) }, w)
  | some call => call.invoke p.id "get_asset_pairs" timeout now w

/-- What a provider brings that is asked for its listing, where one may be known already. -/
def listingTurn (timeout : Duration) (known : Option Listing) (p : Provider ω) (now : Instant)
    (w : ω) : Pending MarketError Listing × ω :=
  match p.listing with
  | none => listingCall timeout p now w
  | some call => Lookup.onTurn now (call.invoke p.id "get_asset_pairs" timeout now) known w

theorem listingTurn_none (timeout : Duration) (p : Provider ω) :
    listingTurn timeout none p = listingCall timeout p := by
  funext now w
  cases listed : p.listing with
  | none => simp only [listingTurn, listed]
  | some call => simp only [listingTurn, listingCall, listed, Lookup.onTurn]

structure Begins (calls : List (Pending MarketError Listing)) (ps : List (Provider ω)) (world : ω)
    (f : Floor ω) (after : Bool × Survey ω × Floor ω) : Prop where
  attends : List.Forall₂ (Attends f.clock.now f.clock.now) calls after.2.1
  world : after.2.2.world = world
  clock : after.2.2.clock = f.clock
  size : after.2.1.length = ps.length
  rests : after.1 = false → waiting after.2.1 = 0

def known (f : Floor ω) (p : Provider ω) : Option Listing := f.listings.fresh? p.id f.clock.wall

def turns (timeout : Duration) (f : Floor ω) (ps : List (Provider ω)) :
    List (Instant → ω → Pending MarketError Listing × ω) :=
  ps.map fun p => listingTurn timeout (known f p) p

theorem turns_congr {f g : Floor ω} {ps : List (Provider ω)}
    (lifetime : g.listings.ttl = f.listings.ttl) (clock : g.clock = f.clock)
    (slots : ∀ p ∈ ps, g.listings.slot p.id = f.listings.slot p.id) :
    turns timeout g ps = turns timeout f ps := by
  refine List.map_congr_left fun p member => ?_
  have same : known g p = known f p := by
    simp only [known, Memo.fresh?, slots p member, lifetime, clock]
  rw [same]

theorem begins_round {ps : List (Provider ω)} {f : Floor ω}
    (alone : ∀ p ∈ ps, (f.listings.slot p.id).queue = [])
    (distinct : ps.Pairwise fun p q => p.id ≠ q.id) :
    Begins (Floor.beginAll f.clock.now f.world (turns timeout f ps)).1 ps
      (Floor.beginAll f.clock.now f.world (turns timeout f ps)).2 f (round timeout (.of ps) f) := by
  induction ps generalizing f with
  | nil => exact ⟨.nil, rfl, rfl, rfl, fun _ => rfl⟩
  | cons p ps ih =>
    obtain ⟨apart, distinct⟩ := List.pairwise_cons.mp distinct
    cases listed : p.listing with
    | none =>
      have rest := ih (fun q member => alone q (List.mem_cons_of_mem _ member)) distinct
      have first : Survey.of (p :: ps) = (p, .done (.error
          (.noProviderForNetwork p.network.name Capability.assetPairs.name))) :: Survey.of ps := by
        simp [Survey.of, listed]
      rw [first]
      simp only [round, tend, turns, listed, List.map_cons, Floor.beginAll, listingTurn,
        listingCall, Bool.false_or]
      refine ⟨.cons ⟨?_, nofun⟩ rest.attends, rest.world, rest.clock, ?_, fun still => ?_⟩
      · exact Lookup.follows_at_once _
      · exact congrArg (· + 1) rest.size
      · simp [waiting_cons, Lookup.result?, rest.rests still]
    | some call =>
      have first : Survey.of (p :: ps) = (p, .idle) :: Survey.of ps := by
        simp [Survey.of, listed]
      let turn := listingTurn timeout (known f p) p f.clock.now f.world
      obtain ⟨l, m, begun, follows, lifetime, others⟩ : ∃ l m, tend timeout f p .idle =
          (true, l, m, turn.2) ∧ l.Follows turn.1 f.clock.now f.clock.now ∧
          m.ttl = f.listings.ttl ∧ ∀ k, p.id ≠ k → m.slot k = f.listings.slot k := by
        simp only [tend, turn, listingTurn, known, listed]
        exact Lookup.settle_idle (alone p List.mem_cons_self) (wakes_invoke _ _ _ _ _)
      have later : ∀ q ∈ ps, m.slot q.id = f.listings.slot q.id := fun q member =>
        others q.id (apart q member)
      let g : Floor ω := { f with world := turn.2, listings := m }
      have rest := ih (f := g)
        (fun q member => later q member ▸ alone q (List.mem_cons_of_mem _ member)) distinct
      have same : turns timeout g ps = turns timeout f ps := turns_congr lifetime rfl later
      rw [same] at rest
      rw [first]
      simp only [round, begun, turns, List.map_cons, Floor.beginAll]
      refine ⟨.cons ⟨follows, fun _ => ?_⟩ rest.attends, rest.world, rest.clock, ?_, nofun⟩
      · simp [listed]
      · exact congrArg (· + 1) rest.size

theorem done_run (timeout : Duration) {ps : List (Provider ω)} {f : Floor ω} {fuel : Nat}
    (alone : ∀ p ∈ ps, (f.listings.slot p.id).queue = [])
    (distinct : ps.Pairwise fun p q => p.id ≠ q.id) (enough : 2 * ps.length + 1 ≤ fuel) :
    let begun := Floor.beginAll f.clock.now f.world (turns timeout f ps)
    let loaded := (loading timeout).run fuel (.of ps, f)
    Done begun.1 f.clock.now loaded.1 ∧ loaded.2.world = begun.2 := by
  intro begun loaded
  obtain ⟨fuel, rfl⟩ : ∃ k, fuel = k + 1 := ⟨fuel - 1, by omega⟩
  have begins : Begins begun.1 ps begun.2 f (round timeout (.of ps) f) :=
    begins_round alone distinct
  cases polled : round timeout (.of ps) f with
  | mk moved y =>
    rw [polled] at begins
    cases moved with
    | true =>
      have few : waiting y.1 ≤ ps.length := begins.size ▸ List.countP_le_length
      have ran : loaded = (loading timeout).run fuel (y.1, y.2) := Schedule.run_of_moved fuel polled
      have enough : 2 * ps.length ≤ fuel := by omega
      have present : y.2.clock.now = f.clock.now := congrArg Clock.now begins.clock
      have attends : List.Forall₂ (Attends f.clock.now y.2.clock.now) begun.1 y.1 := by
        rw [present]
        exact begins.attends
      obtain ⟨done, world⟩ := run_attends ps.length (Nat.le_of_eq present.symm) attends few enough
      rw [ran]
      exact ⟨done, world.trans begins.world⟩
    | false =>
      have done := done_of_attends begins.attends (begins.rests rfl)
      have quiet : (loading timeout).next? y = Option.none := by
        show ((wakes y.1).filter _).min? = Option.none
        rw [wakes_of_done done]
        rfl
      have ran : loaded = y := Schedule.run_of_rest fuel polled quiet
      rw [ran]
      exact ⟨done, begins.world⟩

end Begin

end Survey

namespace Desk

variable {s : Setup ω} {d : Desk ω} {id : Nat}

def hosting (d : Desk ω) (id : Nat) (x : Survey ω × Floor ω) : Desk ω :=
  { d with floor := x.2, callers := [(id, .surveying x.1)] }

theorem caller?_hosting (x : Survey ω × Floor ω) :
    (hosting d id x).caller? id = some (.surveying x.1) := by
  simp [hosting, caller?]

theorem step_hosting (before after : Survey ω) (p : Provider ω) (l : Lookup MarketError Listing)
    (f : Floor ω) :
    step s (hosting d id (before ++ (p, l) :: after, f)) (.lookup (.caller id) before.length) =
      p.listing.bind fun call =>
        (l.step (call.invoke p.id "get_asset_pairs" s.listingTimeout f.clock.now) p.id f.clock
          f.listings f.world).map fun (l, listings, world) =>
            hosting d id (before ++ (p, l) :: after, { f with world, listings }) := by
  have asked (survey : Survey ω) (i : Nat) :
      step s (hosting d id (survey, f)) (.lookup (.caller id) i) =
        (Survey.step s.listingTimeout f survey i).map (hosting d id) := by
    show lookup s (hosting d id (survey, f)) (.caller id) i = _
    unfold lookup
    simp only [caller?_hosting]
    show (Survey.step s.listingTimeout f survey i).bind _ = _
    cases Survey.step s.listingTimeout f survey i with
    | none => rfl
    | some next => simp [hosting, setCaller]
  rw [asked]
  simp only [Survey.step, List.getElem?_append_right (Nat.le_refl _), Nat.sub_self,
    List.getElem?_cons_zero, Option.bind_eq_bind, Option.bind_some]
  cases p.listing with
  | none => rfl
  | some call =>
    simp only [Option.bind_some]
    cases l.step (call.invoke p.id "get_asset_pairs" s.listingTimeout f.clock.now) p.id f.clock
        f.listings f.world with
    | none => rfl
    | some next => simp

theorem exhaust_hosting (before after : Survey ω) {p : Provider ω} {call : Call ω Listing}
    (listed : p.listing = some call) (n : Nat) (b : Bool) (l : Lookup MarketError Listing)
    (f : Floor ω) :
    exhaust s (.lookup (.caller id) before.length) n
        (b, hosting d id (before ++ (p, l) :: after, f)) =
      let (moved, l, listings, world) :=
        Lookup.settle.go (call.invoke p.id "get_asset_pairs" s.listingTimeout f.clock.now) p.id
          f.clock n b f.listings f.world l
      (moved, hosting d id (before ++ (p, l) :: after, { f with world, listings })) := by
  induction n generalizing b l f with
  | zero => rfl
  | succ n ih =>
    unfold exhaust Lookup.settle.go
    simp only [step_hosting, listed, Option.bind_some]
    cases l.step (call.invoke p.id "get_asset_pairs" s.listingTimeout f.clock.now) p.id f.clock
        f.listings f.world with
    | none => rfl
    | some next =>
      obtain ⟨l, listings, world⟩ := next
      exact ih true l { f with world, listings }

theorem exhaust_hosting_unlisted (before after : Survey ω) {p : Provider ω}
    (unlisted : p.listing = none) (n : Nat) (b : Bool) (l : Lookup MarketError Listing)
    (f : Floor ω) :
    exhaust s (.lookup (.caller id) before.length) n
        (b, hosting d id (before ++ (p, l) :: after, f)) =
      (b, hosting d id (before ++ (p, l) :: after, f)) := by
  cases n with
  | zero => rfl
  | succ n => simp [exhaust, step_hosting, unlisted]

theorem pollSurvey_hosting (before after : Survey ω) (b : Bool) (f : Floor ω) :
    (List.range' before.length after.length).foldl
        (fun m i => exhaust s (.lookup (.caller id) i) 3 m)
        (b, hosting d id (before ++ after, f)) =
      let (moved, after, f) := Survey.round s.listingTimeout after f
      (b || moved, hosting d id (before ++ after, f)) := by
  induction after generalizing before b f with
  | nil => simp [Survey.round]
  | cons entry after ih =>
    obtain ⟨p, l⟩ := entry
    have next (l : Lookup MarketError Listing) (b : Bool) (f : Floor ω) :=
      ih (before ++ [(p, l)]) b f
    simp only [List.length_append, List.length_cons, List.length_nil, Nat.zero_add,
      List.append_assoc, List.singleton_append] at next
    rw [List.length_cons, List.range'_succ, List.foldl_cons]
    cases listed : p.listing with
    | none =>
      rw [exhaust_hosting_unlisted before after listed, next]
      simp only [Survey.round, Survey.tend, listed, Bool.false_or]
    | some call =>
      rw [exhaust_hosting before after listed, Lookup.settle_go_flag]
      simp only [Survey.round, Survey.tend, listed, Lookup.settle]
      rw [next]
      simp only [Bool.or_assoc]

theorem round_hosting (x : Survey ω × Floor ω) :
    (schedule s).round (hosting d id x) =
      (((Survey.loading s.listingTimeout).round x).1,
        hosting d id ((Survey.loading s.listingTimeout).round x).2) := by
  obtain ⟨survey, f⟩ := x
  have polled := @pollSurvey_hosting ω s d id [] survey false f
  simp only [List.length_nil, List.nil_append, Bool.false_or] at polled
  have one : (schedule s).round (hosting d id (survey, f)) =
      pollSurvey s (.caller id) survey.length (false, hosting d id (survey, f)) := by
    show pollCaller s (false, hosting d id (survey, f)) id = _
    unfold pollCaller
    simp only [caller?_hosting]
  rw [one, pollSurvey, List.range_eq_range', polled]
  rfl

theorem wakes_hosting (x : Survey ω × Floor ω) : wakes (hosting d id x) = Survey.wakes x.1 := by
  have idle : ∀ f : Nat, (hosting d id x).isAwaited f = false := by
    intro f
    simp [isAwaited, hosting]
  have nobody :
      (hosting d id x).flights.filter (fun f => (hosting d id x).isAwaited f.id) = [] := by
    simp [idle]
  rw [wakes, nobody]
  simp [hosting]

theorem run_hosting (n : Nat) (x : Survey ω × Floor ω) :
    (schedule s).run n (hosting d id x) =
      hosting d id ((Survey.loading s.listingTimeout).run n x) := by
  induction n generalizing x with
  | zero => rfl
  | succ n ih =>
    unfold Schedule.run
    rw [round_hosting]
    cases polled : (Survey.loading s.listingTimeout).round x with
    | mk moved y =>
      cases moved with
      | true => exact ih y
      | false =>
        have same : (schedule s).next? (hosting d id y) =
            (Survey.loading s.listingTimeout).next? y := by
          show (((wakes (hosting d id y)).filter _).min?) = _
          rw [wakes_hosting]
          rfl
        simp only [same]
        cases (Survey.loading s.listingTimeout).next? y with
        | none => rfl
        | some t =>
          have ticked : (schedule s).tick t (hosting d id y) =
              hosting d id ((Survey.loading s.listingTimeout).tick t y) := by
            show (attempt s (false, hosting d id y) (.tick t)).2 = _
            by_cases later : y.2.clock.now < t
            · simp [attempt, step, hosting, Survey.loading, later]
            · simp [attempt, step, hosting, Survey.loading, later]
          simp only [ticked]
          exact ih _

theorem fuel_suffices {n : Nat} (few : n ≤ s.registry.providers.length) :
    2 * n + 1 ≤ rounds s d 1 := by
  have many : 2 * (s.registry.providers.length + 2) ≤
      64 * (1 + d.flights.length + 1) * (s.registry.providers.length + 2) :=
    Nat.mul_le_mul_right _ (by omega)
  unfold rounds
  omega

theorem world_left (x : Survey ω × Floor ω) :
    (attempt s (attempt s (false, hosting d id x) (.drop id)) .forget).2.floor.world =
      x.2.world := by
  have left : step s (hosting d id x) (.drop id) = depart (hosting d id x) id := rfl
  simp only [attempt, left, depart, caller?_hosting]
  rfl

theorem survey_eq_turns {ps : List (Provider ω)} (alone : d.callers = [])
    (free : ∀ p ∈ ps, (d.floor.listings.slot p.id).queue = [])
    (distinct : ps.Pairwise fun p q => p.id ≠ q.id)
    (few : ps.length ≤ s.registry.providers.length) :
    let together := d.floor.together (Survey.turns s.listingTimeout d.floor ps)
    (survey s d ps).1 = together.1 ∧ (survey s d ps).2.floor.world = together.2.world := by
  intro together
  let host : Desk ω := { d with nextCaller := d.nextCaller + 1 }
  let begun : Survey ω × Floor ω := (.of ps, d.floor)
  have admitted : (attempt s (false, d) (.survey ps)).2 = hosting host d.nextCaller begun := by
    simp [attempt, step, admitCaller, hosting, host, begun, alone]
  let loaded := (Survey.loading s.listingTimeout).run
    (rounds s (hosting host d.nextCaller begun) 1) begun
  have ran : run s (hosting host d.nextCaller begun) = hosting host d.nextCaller loaded :=
    run_hosting _ _
  obtain ⟨done, world⟩ := Survey.done_run s.listingTimeout free distinct
    (fuel_suffices (d := hosting host d.nextCaller begun) few)
  have heard : (survey s d ps).1 = loaded.1.map fun (p, l) =>
      l.result?.getD (.error (.timeout p.id "get_asset_pairs" s.listingTimeout)) := by
    simp only [survey, admitted, ran, caller?_hosting]
  have left : (survey s d ps).2.floor.world = loaded.2.world := by
    simp only [survey, admitted, ran]
    exact world_left loaded
  let late (p : Provider ω) : Except MarketError Listing :=
    .error (.timeout p.id "get_asset_pairs" s.listingTimeout)
  have same := d.floor.together_fst (Survey.turns s.listingTimeout d.floor ps)
  exact ⟨heard.trans ((Survey.Done.listings late done).trans same.symm), left.trans world⟩

/-- Where nobody else waits and none of the listings is remembered, a survey is so many calls made
together. -/
theorem survey_eq_together {ps : List (Provider ω)} (alone : d.callers = [])
    (blank : ∀ p ∈ ps, d.floor.listings.slot p.id = {})
    (distinct : ps.Pairwise fun p q => p.id ≠ q.id)
    (few : ps.length ≤ s.registry.providers.length) :
    let together := d.floor.together (ps.map (Survey.listingCall s.listingTimeout))
    (survey s d ps).1 = together.1 ∧ (survey s d ps).2.floor.world = together.2.world := by
  have free : ∀ p ∈ ps, (d.floor.listings.slot p.id).queue = [] := fun p member => by
    rw [blank p member]
  have unknown : Survey.turns s.listingTimeout d.floor ps =
      ps.map (Survey.listingCall s.listingTimeout) := by
    refine List.map_congr_left fun p member => ?_
    have none : Survey.known d.floor p = none := by
      simp [Survey.known, Memo.fresh?, blank p member]
    rw [none, Survey.listingTurn_none]
  exact unknown ▸ survey_eq_turns alone free distinct few

end Desk

end PriceDesk
