import PriceDesk.Proofs.Memo.Custody

namespace PriceDesk

namespace Memo

/-- A caller: its key, how it would begin to compute the value, and where it stands. -/
structure Visitor (κ ε ν ω : Type) where
  key : κ
  start : Clock → ω → Pending ε ν × ω
  lookup : Lookup ε ν := .idle

structure Deposit (κ ν : Type) where
  key : κ
  value : ν
  instant : Instant

/-- A table, the clock, the world in which values are computed, and the callers under way. -/
structure Hall (κ ε ν ω : Type) where
  memo : Memo κ ν
  clock : Clock := {}
  world : ω
  visitors : List (Visitor κ ε ν ω) := []
  deposits : List (Deposit κ ν) := []

namespace Hall

variable {κ ε ν ω : Type} [BEq κ]

inductive Event (κ ε ν ω : Type) where
  | arrive (key : κ) (start : Clock → ω → Pending ε ν × ω)
  | move (i : Nat)
  | leave (i : Nat)
  | peek (key : κ)
  | pass (now wall : Duration) (world : ω)

def deposit? (clock : Clock) (v : Visitor κ ε ν ω) : Option (Deposit κ ν) :=
  (v.lookup.stores? clock).map (⟨v.key, ·, clock.wall⟩)

def advance (h : Hall κ ε ν ω) (v : Visitor κ ε ν ω) :
    Option (Lookup ε ν × Memo κ ν × ω) :=
  v.lookup.step (v.start h.clock) v.key h.clock h.memo h.world

def step (h : Hall κ ε ν ω) : Event κ ε ν ω → Hall κ ε ν ω
  | .arrive key start => { h with visitors := h.visitors ++ [{ key, start }] }
  | .move i =>
    match h.visitors[i]? with
    | none => h
    | some v =>
      match h.advance v with
      | none => h
      | some (lookup, memo, world) =>
        { h with
          memo, world
          visitors := h.visitors.set i { v with lookup }
          deposits := h.deposits ++ (deposit? h.clock v).toList }
  | .leave i =>
    match h.visitors[i]? with
    | none => h
    | some v =>
      { h with memo := v.lookup.drop v.key h.memo, visitors := h.visitors.eraseIdx i }
  | .peek _ => h
  | .pass now wall world =>
    let clock := { h.clock with now := h.clock.now + now, wall := h.clock.wall + wall }
    { h with clock, world }

def after (events : List (Event κ ε ν ω)) (h : Hall κ ε ν ω) : Hall κ ε ν ω :=
  events.foldl step h

def last? (deposits : List (Deposit κ ν)) (k : κ) : Option (Deposit κ ν) :=
  (deposits.filter (·.key == k)).getLast?

/-- Whether a value is the one that was stored last for a key, not longer ago than it lives. -/
def Offers (h : Hall κ ε ν ω) (k : κ) (value : ν) : Prop :=
  ∃ x, last? h.deposits k = some x ∧ x.value = value ∧ h.clock.wall - x.instant < h.memo.ttl

/-- Nobody computes for the key, the first who waits for it need not wait any longer, and where
nobody waits, it is the turn of whoever comes next. -/
structure Free (h : Hall κ ε ν ω) (k : κ) : Prop where
  unused : ∀ v ∈ h.visitors, (v.key == k) = true → v.lookup.isComputing = false
  first : ∀ ticket ∈ (h.memo.slot k).queue.head?, ∃ v ∈ h.visitors, (v.key == k) = true ∧
    v.lookup = .queued ticket ∧ (h.advance v).isSome = true
  next : (h.memo.slot k).queue = [] →
    (h.memo.enter k).2.isTurn k (h.memo.enter k).1 = true

inductive Happens (h : Hall κ ε ν ω) : Event κ ε ν ω → Hall κ ε ν ω → Prop
  | arrived {key : κ} {start : Clock → ω → Pending ε ν × ω} :
      Happens h (.arrive key start) { h with visitors := h.visitors ++ [{ key, start }] }
  | moved {i : Nat} {v : Visitor κ ε ν ω} {lookup : Lookup ε ν} {memo : Memo κ ν} {world : ω}
      (there : h.visitors[i]? = some v)
      (moved : v.lookup.Moved (v.start h.clock) v.key h.clock h.memo h.world lookup memo world) :
      Happens h (.move i)
        { h with
          memo, world
          visitors := h.visitors.set i { v with lookup }
          deposits := h.deposits ++ (deposit? h.clock v).toList }
  | left {i : Nat} {v : Visitor κ ε ν ω} (there : h.visitors[i]? = some v) :
      Happens h (.leave i)
        { h with memo := v.lookup.drop v.key h.memo, visitors := h.visitors.eraseIdx i }
  | still {event : Event κ ε ν ω} (here : ∀ i, event = .leave i → h.visitors[i]? = none) :
      Happens h event h
  | passed {now wall : Duration} {world : ω} :
      Happens h (.pass now wall world)
        { h with
          clock := { h.clock with now := h.clock.now + now, wall := h.clock.wall + wall }
          world }

theorem happens (h : Hall κ ε ν ω) (event : Event κ ε ν ω) : Happens h event (h.step event) := by
  cases event with
  | arrive key start => exact .arrived
  | move i =>
    simp only [step]
    split
    · exact .still (by simp)
    · rename_i v there
      split
      · exact .still (by simp)
      · rename_i lookup memo world moved
        exact .moved there (Lookup.moved_of_step moved)
  | leave i =>
    simp only [step]
    split
    · rename_i missing
      refine .still fun j same => ?_
      cases same
      exact missing
    · rename_i v there
      exact .left there
  | peek key => exact .still (by simp)
  | pass now wall world => exact .passed

def visits (visitors : List (Visitor κ ε ν ω)) : List (κ × Lookup ε ν) :=
  visitors.map fun v => (v.key, v.lookup)

omit [BEq κ] in
theorem visits_at {visitors : List (Visitor κ ε ν ω)} {i : Nat} {v : Visitor κ ε ν ω}
    (there : visitors[i]? = some v) :
    (visits visitors).Perm ((v.key, v.lookup) :: visits (visitors.eraseIdx i)) := by
  obtain ⟨below, rfl⟩ := List.getElem?_eq_some_iff.mp there
  exact (List.getElem_cons_eraseIdx_perm below).symm.map _

omit [BEq κ] in
theorem visits_set {visitors : List (Visitor κ ε ν ω)} {i : Nat} (below : i < visitors.length)
    (v : Visitor κ ε ν ω) :
    (visits (visitors.set i v)).Perm ((v.key, v.lookup) :: visits (visitors.eraseIdx i)) :=
  (List.set_perm_cons_eraseIdx below v).map _

omit [BEq κ] in
theorem visits_append (visitors : List (Visitor κ ε ν ω)) (v : Visitor κ ε ν ω) :
    (visits (visitors ++ [v])).Perm ((v.key, v.lookup) :: visits visitors) :=
  (List.perm_append_singleton v visitors).map _

structure Kept (ttl : Duration) (h : Hall κ ε ν ω) : Prop where
  lifetime : h.memo.ttl = ttl
  orderly : h.memo.Orderly (visits h.visitors)
  past : ∀ x ∈ h.deposits, x.instant ≤ h.clock.wall
  sorted : h.deposits.Pairwise fun x y => x.instant ≤ y.instant
  last : ∀ k, (h.memo.slot k).entry = (last? h.deposits k).map fun x => ⟨x.value, x.instant⟩

namespace Kept

variable {ttl : Duration} {h : Hall κ ε ν ω}

theorem fresh (ttl : Duration) (clock : Clock) (world : ω) :
    Kept ttl ({ memo := { ttl }, clock, world } : Hall κ ε ν ω) where
  lifetime := rfl
  orderly := Orderly.fresh ttl
  past := by simp
  sorted := .nil
  last _ := rfl

theorem offers_of_entry (kept : Kept ttl h) {k : κ} {e : Memo.Entry ν}
    (entry : (h.memo.slot k).entry = some e) (young : h.clock.wall - e.created < h.memo.ttl) :
    h.Offers k e.value := by
  have last := kept.last k
  rw [entry] at last
  obtain ⟨x, found, rfl⟩ := Option.map_eq_some_iff.mp last.symm
  exact ⟨x, found, rfl, young⟩

theorem offers_of_fresh? (kept : Kept ttl h) {k : κ} {value : ν}
    (fresh : h.memo.fresh? k h.clock.wall = some value) : h.Offers k value := by
  obtain ⟨e, entry, young, rfl⟩ := fresh?_eq_some_iff.mp fresh
  exact kept.offers_of_entry entry young

omit [BEq κ] in
theorem le_last {deposits : List (Deposit κ ν)}
    (sorted : deposits.Pairwise fun x y => x.instant ≤ y.instant) {x y : Deposit κ ν}
    (member : x ∈ deposits) (last : deposits.getLast? = some y) : x.instant ≤ y.instant := by
  obtain ⟨front, rfl⟩ := List.getLast?_eq_some_iff.mp last
  rcases List.mem_append.mp member with earlier | itself
  · exact (List.pairwise_append.mp sorted).2.2 x earlier y List.mem_cons_self
  · cases List.mem_singleton.mp itself
    exact Nat.le_refl _

theorem expired (kept : Kept ttl h) {k : κ} (stale : h.memo.fresh? k h.clock.wall = none)
    {x : Deposit κ ν} (member : x ∈ h.deposits) (own : (x.key == k) = true) :
    ttl ≤ h.clock.wall - x.instant := by
  have among : x ∈ h.deposits.filter (·.key == k) := List.mem_filter.mpr ⟨member, own⟩
  cases found : last? h.deposits k with
  | none =>
    rw [List.getLast?_eq_none_iff.mp found] at among
    cases among
  | some y =>
    have older := le_last (kept.sorted.filter _) among found
    have last := kept.last k
    rw [found] at last
    have aged : h.memo.ttl ≤ h.clock.wall - y.instant := stale_of_fresh?_eq_none stale last
    rw [← kept.lifetime]
    exact Nat.le_trans aged (Nat.sub_le_sub_left older _)

theorem last?_append (deposits : List (Deposit κ ν)) (x : Deposit κ ν) (k : κ) :
    last? (deposits ++ [x]) k = if x.key == k then some x else last? deposits k := by
  rw [last?, List.filter_append, List.filter_singleton]
  cases x.key == k with
  | true => simp
  | false => simp [last?]

variable [EquivBEq κ]

theorem happening (kept : Kept ttl h) {event : Event κ ε ν ω} {h' : Hall κ ε ν ω}
    (happens : Happens h event h') : Kept ttl h' := by
  cases happens with
  | @arrived key start =>
    refine ⟨kept.lifetime, ?_, kept.past, kept.sorted, kept.last⟩
    have added : Orderly h.memo ((key, .idle) :: visits h.visitors) :=
      (Orderly.idle_iff rfl).mpr kept.orderly
    exact added.perm (visits_append h.visitors { key, start }).symm
  | @moved i v lookup memo world there moved =>
    obtain ⟨below, _⟩ := List.getElem?_eq_some_iff.mp there
    have others := kept.orderly.perm (visits_at there)
    refine ⟨moved.ttl.trans kept.lifetime,
      (others.move moved).perm (visits_set below { v with lookup }).symm, ?_, ?_, ?_⟩
    · intro x member
      rcases List.mem_append.mp member with earlier | new
      · exact kept.past x earlier
      · obtain ⟨value, _, rfl⟩ := Option.map_eq_some_iff.mp (Option.mem_toList.mp new)
        exact Nat.le_refl _
    · refine List.pairwise_append.mpr ⟨kept.sorted, ?_, ?_⟩
      · cases deposit? h.clock v <;> simp
      · intro x earlier y new
        obtain ⟨value, _, rfl⟩ := Option.map_eq_some_iff.mp (Option.mem_toList.mp new)
        exact kept.past x earlier
    · intro k
      have entry := moved.entry k
      simp only [deposit?]
      cases stores : v.lookup.stores? h.clock with
      | none =>
        rw [stores] at entry
        simpa [entry] using kept.last k
      | some value =>
        rw [stores] at entry
        simp only [Option.map, Option.toList, last?_append]
        rw [entry]
        cases v.key == k with
        | true => rfl
        | false => exact kept.last k
  | @left i v there =>
    have others := kept.orderly.perm (visits_at there)
    exact ⟨(Lookup.drop_ttl _ _ _).trans kept.lifetime, others.drop, kept.past, kept.sorted,
      fun k => (Lookup.drop_entry _ _ _ k).trans (kept.last k)⟩
  | still here => exact kept
  | passed =>
    exact ⟨kept.lifetime, kept.orderly,
      fun x member => Nat.le_add_right_of_le (kept.past x member), kept.sorted, kept.last⟩

theorem after (kept : Kept ttl h) (events : List (Event κ ε ν ω)) :
    Kept ttl (Hall.after events h) := by
  induction events generalizing h with
  | nil => exact kept
  | cons event events ih => exact ih (kept.happening (happens h event))

end Kept

structure Guarded (ttl : Duration) (h : Hall κ ε ν ω) (event : Event κ ε ν ω) : Prop where
  lifetime : (h.step event).memo.ttl = ttl
  holds : ∀ k, ((h.step event).memo.slot k).entry =
    (last? (h.step event).deposits k).map fun x => ⟨x.value, x.instant⟩
  oneEach : ∀ (i j : Nat) (v w : Visitor κ ε ν ω), (h.step event).visitors[i]? = some v →
    (h.step event).visitors[j]? = some w → (v.key == w.key) = true →
    v.lookup.isComputing = true → w.lookup.isComputing = true → i = j
  begins : ∀ i v w, event = .move i → h.visitors[i]? = some v →
    (h.step event).visitors[i]? = some w → v.lookup.isComputing = false →
    w.lookup.isComputing = true →
    ∀ x ∈ h.deposits, (x.key == v.key) = true → ttl ≤ h.clock.wall - x.instant
  gives : ∀ i v w value, event = .move i → h.visitors[i]? = some v →
    (h.step event).visitors[i]? = some w → v.lookup.result? = none →
    w.lookup = .done (.ok value) →
    (∃ ticket call, v.lookup = .computing ticket call ∧
      call.poll h.clock.now = some (.ok value) ∧
      (h.step event).deposits = h.deposits ++ [⟨v.key, value, h.clock.wall⟩]) ∨
    h.Offers v.key value
  peeks : ∀ k value, h.memo.peek k h.clock.wall = some value → h.Offers k value
  /-- A computation that fails, or whose caller goes away, changes no value and frees the key. -/
  frees : ∀ i v, h.visitors[i]? = some v → v.lookup.isComputing = true →
    (event = .leave i ∨ event = .move i ∧ ∃ w failure, (h.step event).visitors[i]? = some w ∧
      w.lookup = .done (.error failure)) →
    (h.step event).deposits = h.deposits ∧
      (∀ k, ((h.step event).memo.slot k).entry = (h.memo.slot k).entry) ∧
      (h.step event).Free v.key
  /-- What a caller does touches neither the value nor the queue of another key: who could move
  there still can. -/
  apart : ∀ i v, h.visitors[i]? = some v → event = .move i ∨ event = .leave i →
    ∀ k, (v.key == k) = false → (h.step event).memo.slot k = h.memo.slot k ∧
      ∀ u : Visitor κ ε ν ω, (u.key == k) = true →
        ((h.step event).advance u).isSome = (h.advance u).isSome

section Guarded

variable {ttl : Duration} {h : Hall κ ε ν ω}

theorem step_move {i : Nat} {v w : Visitor κ ε ν ω} (there : h.visitors[i]? = some v)
    (after : (h.step (.move i)).visitors[i]? = some w) :
    h.step (.move i) = h ∧ w = v ∨ ∃ lookup memo world,
      v.lookup.Moved (v.start h.clock) v.key h.clock h.memo h.world lookup memo world ∧
      w = { v with lookup } ∧ h.step (.move i) =
        { h with
          memo, world
          visitors := h.visitors.set i w
          deposits := h.deposits ++ (deposit? h.clock v).toList } := by
  have happening := happens h (.move i)
  generalize h.step (.move i) = h' at happening after
  cases happening with
  | still here =>
    rw [there] at after
    cases after
    exact .inl ⟨rfl, rfl⟩
  | @moved i v' lookup memo world there' moved =>
    rw [there] at there'
    cases there'
    obtain ⟨below, _⟩ := List.getElem?_eq_some_iff.mp there
    rw [List.getElem?_set_self below] at after
    cases after
    exact .inr ⟨lookup, memo, world, moved, rfl, rfl⟩

theorem step_leave {i : Nat} {v : Visitor κ ε ν ω} (there : h.visitors[i]? = some v) :
    h.step (.leave i) =
      { h with memo := v.lookup.drop v.key h.memo, visitors := h.visitors.eraseIdx i } := by
  simp only [step, there]

theorem Kept.begins (kept : Kept ttl h) {i : Nat} {v w : Visitor κ ε ν ω}
    (there : h.visitors[i]? = some v) (after : (h.step (.move i)).visitors[i]? = some w)
    (before : v.lookup.isComputing = false) (computes : w.lookup.isComputing = true)
    {x : Deposit κ ν} (member : x ∈ h.deposits) (own : (x.key == v.key) = true) :
    ttl ≤ h.clock.wall - x.instant := by
  rcases step_move there after with ⟨_, rfl⟩ | ⟨lookup, memo, world, moved, rfl, _⟩
  · rw [before] at computes
    cases computes
  · exact kept.expired (moved.stale before computes) member own

theorem Kept.gives (kept : Kept ttl h) {i : Nat} {v w : Visitor κ ε ν ω} {value : ν}
    (there : h.visitors[i]? = some v) (after : (h.step (.move i)).visitors[i]? = some w)
    (before : v.lookup.result? = none) (given : w.lookup = .done (.ok value)) :
    (∃ ticket call, v.lookup = .computing ticket call ∧
      call.poll h.clock.now = some (.ok value) ∧
      (h.step (.move i)).deposits = h.deposits ++ [⟨v.key, value, h.clock.wall⟩]) ∨
    h.Offers v.key value := by
  rcases step_move there after with ⟨_, rfl⟩ | ⟨lookup, memo, world, moved, rfl, result⟩
  · rw [given] at before
    cases before
  · rw [result]
    obtain ⟨key, start, l⟩ := v
    cases moved with
    | recalled turn fresh =>
      cases given
      exact .inr (kept.offers_of_fresh? fresh)
    | @stored ticket call value' answer =>
      cases given
      refine .inl ⟨ticket, call, rfl, answer, ?_⟩
      simp only [deposit?, Lookup.stores?, answer]
      rfl
    | entered | began _ _ | failed _ => cases given

theorem Kept.peeks (kept : Kept ttl h) {k : κ} {value : ν}
    (peeked : h.memo.peek k h.clock.wall = some value) : h.Offers k value := by
  unfold peek at peeked
  split at peeked
  · exact kept.offers_of_fresh? peeked
  · cases peeked

variable [EquivBEq κ]

theorem Kept.alone (kept : Kept ttl h) {i : Nat} {v u : Visitor κ ε ν ω}
    (there : h.visitors[i]? = some v) (computes : v.lookup.isComputing = true)
    (other : u ∈ h.visitors.eraseIdx i) (same : (u.key == v.key) = true) :
    u.lookup.isComputing = false := by
  have orderly := kept.orderly.perm (visits_at there)
  obtain ⟨key, start, l⟩ := v
  obtain ⟨key', start', l'⟩ := u
  cases l with
  | computing ticket call =>
    have turn := orderly.turn key ticket call List.mem_cons_self
    cases l' with
    | computing ticket' call' =>
      have differs := orderly.alone rfl turn (List.mem_map.mpr ⟨_, other, rfl⟩)
      rw [same] at differs
      cases differs
    | idle | queued _ | done _ => rfl
  | idle | queued _ | done _ => cases computes

theorem Kept.oneEach (kept : Kept ttl h) {i j : Nat} {v w : Visitor κ ε ν ω}
    (one : h.visitors[i]? = some v) (two : h.visitors[j]? = some w)
    (same : (v.key == w.key) = true) (first : v.lookup.isComputing = true)
    (second : w.lookup.isComputing = true) : i = j := by
  apply Decidable.byContradiction
  intro differs
  have other : w ∈ h.visitors.eraseIdx i :=
    List.mem_eraseIdx_iff_getElem?.mpr ⟨j, Ne.symm differs, two⟩
  rw [kept.alone one first other (BEq.symm same)] at second
  cases second

theorem Kept.free (kept : Kept ttl h) {k : κ}
    (unused : ∀ u ∈ h.visitors, (u.key == k) = true → u.lookup.isComputing = false) :
    h.Free k where
  unused := unused
  first := by
    intro ticket head
    have among := (kept.orderly.standing k).mem_iff.mpr (List.mem_of_mem_head? head)
    obtain ⟨_, visit, own, stands⟩ := mem_tickets.mp among
    obtain ⟨u, member, rfl⟩ := List.mem_map.mp visit
    refine ⟨u, member, own, ?_⟩
    have waits := unused u member own
    obtain ⟨key, start, l⟩ := u
    cases l with
    | queued ticket' =>
      cases stands
      refine ⟨rfl, ?_⟩
      rw [advance, Lookup.isSome_step, Lookup.canMove, Orderly.isTurn_congr own, isTurn_iff]
      exact head
    | computing _ _ => cases waits
    | idle | done _ => cases stands
  next := by
    intro nobody
    rw [isTurn_iff, slot_enter, BEq.rfl]
    simp [nobody, enter]

theorem Kept.free_leave (kept : Kept ttl h) {i : Nat} {v : Visitor κ ε ν ω}
    (there : h.visitors[i]? = some v) (computes : v.lookup.isComputing = true) :
    (h.step (.leave i)).Free v.key := by
  have after := kept.happening (happens h (.leave i))
  apply after.free
  rw [step_leave there]
  intro u member same
  exact kept.alone there computes member same

theorem Kept.free_failed (kept : Kept ttl h) {i : Nat} {v w : Visitor κ ε ν ω} {failure : ε}
    (there : h.visitors[i]? = some v) (computes : v.lookup.isComputing = true)
    (after : (h.step (.move i)).visitors[i]? = some w)
    (failed : w.lookup = .done (.error failure)) :
    (h.step (.move i)).deposits = h.deposits ∧
      (∀ k, ((h.step (.move i)).memo.slot k).entry = (h.memo.slot k).entry) ∧
      (h.step (.move i)).Free v.key := by
  have kept' := kept.happening (happens h (.move i))
  rcases step_move there after with ⟨_, rfl⟩ | ⟨lookup, memo, world, moved, rfl, result⟩
  · rw [failed] at computes
    cases computes
  · have nothing : v.lookup.stores? h.clock = none := by
      generalize v.lookup = l at moved
      cases failed
      cases moved with
      | failed answer => simp only [Lookup.stores?, answer]
    refine ⟨?_, ?_, kept'.free ?_⟩
    · simp [result, deposit?, nothing]
    · intro k
      have entry := moved.entry k
      rw [nothing] at entry
      rw [result]
      exact entry
    · rw [result]
      intro u member same
      obtain ⟨below, _⟩ := List.getElem?_eq_some_iff.mp there
      have either := (List.set_perm_cons_eraseIdx below _).mem_iff.mp member
      rcases List.mem_cons.mp either with rfl | other
      · rw [failed]
        rfl
      · exact kept.alone there computes other same

theorem slot_step {i : Nat} {v : Visitor κ ε ν ω} {event : Event κ ε ν ω}
    (there : h.visitors[i]? = some v) (acts : event = .move i ∨ event = .leave i) {k : κ}
    (other : (v.key == k) = false) :
    (h.step event).memo.slot k = h.memo.slot k ∧ (h.step event).clock = h.clock := by
  rcases acts with rfl | rfl
  · have happening := happens h (.move i)
    generalize h.step (.move i) = h' at happening ⊢
    cases happening with
    | still here => exact ⟨rfl, rfl⟩
    | moved there' moved =>
      rw [there] at there'
      cases there'
      exact ⟨moved.apart other, rfl⟩
  · rw [step_leave there]
    exact ⟨Lookup.drop_apart _ _ other, rfl⟩

omit [EquivBEq κ] in
theorem isSome_advance (u : Visitor κ ε ν ω) :
    (h.advance u).isSome = u.lookup.canMove u.key h.clock.now h.memo :=
  Lookup.isSome_step _

theorem Kept.guarded (kept : Kept ttl h) (event : Event κ ε ν ω) : Guarded ttl h event := by
  have kept' := kept.happening (happens h event)
  exact {
    lifetime := kept'.lifetime
    holds := kept'.last
    oneEach := fun i j v w => kept'.oneEach
    begins := by
      intro i v w moves there after before computes x member own
      subst moves
      exact kept.begins there after before computes member own
    gives := by
      intro i v w value moves there after before given
      subst moves
      exact kept.gives there after before given
    peeks := fun k value => kept.peeks
    frees := by
      intro i v there computes ends
      rcases ends with rfl | ⟨rfl, w, failure, after, failed⟩
      · refine ⟨?_, ?_, kept.free_leave there computes⟩
        · rw [step_leave there]
        · intro k
          rw [step_leave there]
          exact Lookup.drop_entry _ _ _ k
      · exact kept.free_failed there computes after failed
    apart := by
      intro i v there acts k other
      refine ⟨(slot_step there acts other).1, ?_⟩
      intro u same
      have differs : (v.key == u.key) = false := (BEq.congr_right same).trans other
      obtain ⟨slot, clock⟩ := slot_step there acts differs
      rw [isSome_advance, isSome_advance, clock]
      exact Lookup.canMove_congr slot _ _ }

end Guarded

end Hall

end Memo

end PriceDesk
