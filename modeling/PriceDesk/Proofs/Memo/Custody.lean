import Mathlib.Data.List.Perm.Basic
import PriceDesk.Memo.Lookup

namespace PriceDesk

variable {κ ε ν ω : Type} [BEq κ]

namespace Lookup

def ticket? : Lookup ε ν → Option Nat
  | .queued ticket | .computing ticket _ => some ticket
  | .idle | .done _ => none

def isComputing : Lookup ε ν → Bool
  | .computing _ _ => true
  | _ => false

theorem isComputing_of_quiet {l : Lookup ε ν} (quiet : l.ticket? = none) :
    l.isComputing = false := by
  cases l with
  | computing ticket call => cases quiet
  | idle | queued _ | done _ => rfl

def stores? (clock : Clock) : Lookup ε ν → Option ν
  | .computing _ call =>
    match call.poll clock.now with
    | some (.ok value) => some value
    | _ => none
  | _ => none

inductive Moved (start : ω → Pending ε ν × ω) (key : κ) (clock : Clock) (m : Memo κ ν) (w : ω) :
    Lookup ε ν → Lookup ε ν → Memo κ ν → ω → Prop
  | entered : Moved start key clock m w .idle (.queued m.nextTicket) (m.enter key).2 w
  | recalled {ticket : Nat} {value : ν} (turn : m.isTurn key ticket = true)
      (fresh : m.fresh? key clock.wall = some value) :
      Moved start key clock m w (.queued ticket) (.done (.ok value)) (m.leave key ticket) w
  | began {ticket : Nat} (turn : m.isTurn key ticket = true)
      (stale : m.fresh? key clock.wall = none) :
      Moved start key clock m w (.queued ticket) (.computing ticket (start w).1) m (start w).2
  | stored {ticket : Nat} {call : Pending ε ν} {value : ν}
      (answer : call.poll clock.now = some (.ok value)) :
      Moved start key clock m w (.computing ticket call) (.done (.ok value))
        ((m.store key value clock.wall).leave key ticket) w
  | failed {ticket : Nat} {call : Pending ε ν} {failure : ε}
      (answer : call.poll clock.now = some (.error failure)) :
      Moved start key clock m w (.computing ticket call) (.done (.error failure))
        (m.leave key ticket) w

theorem Moved.call_eq {start : ω → Pending ε ν × ω} {key : κ} {clock : Clock} {m m' : Memo κ ν}
    {w w' : ω} {l l' : Lookup ε ν} (moved : Moved start key clock m w l l' m' w') {ticket : Nat}
    {call : Pending ε ν} (computing : l' = .computing ticket call) : call = (start w).1 := by
  cases moved <;> cases computing
  rfl

theorem moved_of_step {start : ω → Pending ε ν × ω} {key : κ} {clock : Clock} {m m' : Memo κ ν}
    {w w' : ω} {l l' : Lookup ε ν} (step : l.step start key clock m w = some (l', m', w')) :
    Moved start key clock m w l l' m' w' := by
  cases l with
  | idle =>
    cases step
    exact .entered
  | queued ticket =>
    simp only [Lookup.step] at step
    split at step
    · rename_i turn
      split at step
      · rename_i value fresh
        cases step
        exact .recalled turn fresh
      · rename_i stale
        cases step
        exact .began turn stale
    · cases step
  | computing ticket call =>
    simp only [Lookup.step] at step
    split at step
    · rename_i value answer
      cases step
      exact .stored answer
    · rename_i failure answer
      cases step
      exact .failed answer
    · cases step
  | done r => cases step

def canMove (key : κ) (now : Instant) (m : Memo κ ν) : Lookup ε ν → Bool
  | .idle => true
  | .queued ticket => m.isTurn key ticket
  | .computing _ call => (call.poll now).isSome
  | .done _ => false

theorem isSome_step {start : ω → Pending ε ν × ω} {key : κ} {clock : Clock} {m : Memo κ ν} {w : ω}
    (l : Lookup ε ν) : (l.step start key clock m w).isSome = l.canMove key clock.now m := by
  cases l with
  | idle => rfl
  | queued ticket =>
    simp only [Lookup.step, canMove]
    cases m.isTurn key ticket with
    | false => rfl
    | true => cases m.fresh? key clock.wall <;> rfl
  | computing ticket call =>
    simp only [Lookup.step, canMove]
    cases call.poll clock.now with
    | none => rfl
    | some outcome => cases outcome <;> rfl
  | done r => rfl

theorem canMove_congr {key : κ} {m m' : Memo κ ν} (same : m'.slot key = m.slot key) (now : Instant)
    (l : Lookup ε ν) : l.canMove key now m' = l.canMove key now m := by
  cases l with
  | queued ticket => simp only [canMove, Memo.isTurn, same]
  | idle | computing _ _ | done _ => rfl

namespace Moved

variable {start : ω → Pending ε ν × ω} {key : κ} {clock : Clock} {m m' : Memo κ ν} {w w' : ω}
  {l l' : Lookup ε ν}

theorem ttl (moved : Moved start key clock m w l l' m' w') : m'.ttl = m.ttl := by
  cases moved <;> rfl

theorem stale (moved : Moved start key clock m w l l' m' w') (before : l.isComputing = false)
    (after : l'.isComputing = true) : m.fresh? key clock.wall = none := by
  cases moved with
  | began turn stale => exact stale
  | entered | recalled _ _ | stored _ | failed _ => cases after

variable [EquivBEq κ]

theorem entry (moved : Moved start key clock m w l l' m' w') (k : κ) :
    (m'.slot k).entry =
      match l.stores? clock with
      | some value => if key == k then some ⟨value, clock.wall⟩ else (m.slot k).entry
      | none => (m.slot k).entry := by
  cases moved with
  | entered =>
    rw [Memo.slot_enter]
    cases key == k <;> rfl
  | recalled turn fresh =>
    rw [Memo.slot_leave]
    cases key == k <;> rfl
  | began turn stale => rfl
  | stored answer =>
    simp only [stores?, answer]
    rw [Memo.slot_leave, Memo.slot_store]
    cases key == k <;> rfl
  | failed answer =>
    simp only [stores?, answer]
    rw [Memo.slot_leave]
    cases key == k <;> rfl

theorem entry_of_computed (moved : Moved start key clock m w l l' m' w')
    (computes : l.isComputing = true) {value : ν} (after : l' = .done (.ok value)) :
    (m'.slot key).entry = some ⟨value, clock.wall⟩ := by
  have entry := moved.entry key
  cases moved with
  | stored answer =>
    cases after
    simpa [stores?, answer] using entry
  | failed answer => cases after
  | entered | recalled _ _ | began _ _ => cases computes

theorem apart (moved : Moved start key clock m w l l' m' w') {k : κ} (other : (key == k) = false) :
    m'.slot k = m.slot k := by
  cases moved with
  | entered => simp [Memo.slot_enter, other]
  | recalled turn fresh => simp [Memo.slot_leave, other]
  | began turn stale => rfl
  | stored answer => simp [Memo.slot_leave, Memo.slot_store, other]
  | failed answer => simp [Memo.slot_leave, other]

end Moved

theorem drop_ttl (key : κ) (m : Memo κ ν) (l : Lookup ε ν) : (l.drop key m).ttl = m.ttl := by
  cases l <;> rfl

theorem drop_entry [EquivBEq κ] (key : κ) (m : Memo κ ν) (l : Lookup ε ν) (k : κ) :
    ((l.drop key m).slot k).entry = (m.slot k).entry := by
  cases l with
  | idle | done r => rfl
  | queued ticket | computing ticket call =>
    change ((m.leave key ticket).slot k).entry = _
    rw [Memo.slot_leave]
    cases key == k <;> rfl

theorem drop_apart [EquivBEq κ] {key : κ} (m : Memo κ ν) (l : Lookup ε ν) {k : κ}
    (other : (key == k) = false) : (l.drop key m).slot k = m.slot k := by
  cases l with
  | idle | done r => rfl
  | queued ticket | computing ticket call =>
    change (m.leave key ticket).slot k = _
    simp [Memo.slot_leave, other]

end Lookup

namespace Memo

def tickets (k : κ) (visits : List (κ × Lookup ε ν)) : List Nat :=
  visits.filterMap fun v => if v.1 == k then v.2.ticket? else none

theorem tickets_cons (k : κ) (v : κ × Lookup ε ν) (visits : List (κ × Lookup ε ν)) :
    tickets k (v :: visits) =
      (if v.1 == k then v.2.ticket? else none).toList ++ tickets k visits := by
  rw [tickets, List.filterMap_cons, tickets]
  cases (if v.1 == k then v.2.ticket? else none) <;> rfl

theorem mem_tickets {k : κ} {visits : List (κ × Lookup ε ν)} {ticket : Nat} :
    ticket ∈ tickets k visits ↔
      ∃ v ∈ visits, (v.1 == k) = true ∧ v.2.ticket? = some ticket := by
  simp only [tickets, List.mem_filterMap]
  refine exists_congr fun v => and_congr_right fun _ => ?_
  cases v.1 == k <;> simp

/-- The callers under way stand in the queues of their keys, and the queues hold nobody else. -/
structure Orderly (m : Memo κ ν) (visits : List (κ × Lookup ε ν)) : Prop where
  below : ∀ k, ∀ ticket ∈ (m.slot k).queue, ticket < m.nextTicket
  distinct : ∀ k, (m.slot k).queue.Nodup
  standing : ∀ k, (tickets k visits).Perm (m.slot k).queue
  turn : ∀ k ticket call, (k, .computing ticket call) ∈ visits → m.isTurn k ticket = true

namespace Orderly

variable {m : Memo κ ν} {visits others : List (κ × Lookup ε ν)} {key : κ} {l : Lookup ε ν}

theorem fresh (ttl : Duration) : Orderly (ε := ε) ({ ttl } : Memo κ ν) [] where
  below _ _ member := by cases member
  distinct _ := List.nodup_nil
  standing _ := List.Perm.nil
  turn _ _ _ member := by cases member

theorem perm (orderly : Orderly m visits) (same : visits.Perm others) : Orderly m others where
  below := orderly.below
  distinct := orderly.distinct
  standing k := (same.symm.filterMap _).trans (orderly.standing k)
  turn k ticket call member := orderly.turn k ticket call (same.mem_iff.mpr member)

theorem idle_iff (idle : l.ticket? = none) : Orderly m ((key, l) :: visits) ↔ Orderly m visits := by
  have same : ∀ k, tickets k ((key, l) :: visits) = tickets k visits := by
    intro k
    rw [tickets_cons]
    simp [idle]
  constructor
  · intro orderly
    have standing := orderly.standing
    simp only [same] at standing
    exact ⟨orderly.below, orderly.distinct, standing,
      fun k ticket call member => orderly.turn k ticket call (List.mem_cons_of_mem _ member)⟩
  · intro orderly
    refine ⟨orderly.below, orderly.distinct, fun k => same k ▸ orderly.standing k, ?_⟩
    intro k ticket call member
    rcases List.mem_cons.mp member with first | member
    · cases first
      cases idle
    · exact orderly.turn k ticket call member

variable [EquivBEq κ]

theorem isTurn_congr {k : κ} {ticket : Nat} (same : (key == k) = true) :
    m.isTurn key ticket = m.isTurn k ticket := by
  have slots : m.slot key = m.slot k := by
    unfold slot
    congr 1
    induction m.slots with
    | nil => rfl
    | cons entry slots ih => rw [List.lookup_cons, List.lookup_cons, BEq.congr_left same, ih]
  rw [isTurn, isTurn, slots]

theorem standing_cons (orderly : Orderly m ((key, l) :: visits)) {ticket : Nat}
    (stands : l.ticket? = some ticket) (k : κ) :
    (tickets k visits).Perm ((m.leave key ticket).slot k).queue ∧
      ticket ∈ (m.slot key).queue ∧
      ((key == k) = true → ticket ∉ tickets k visits) := by
  have here := orderly.standing k
  rw [tickets_cons] at here
  refine ⟨?_, ?_, ?_⟩
  · rw [slot_leave]
    cases own : key == k with
    | true =>
      simp only [own, if_true, stands, Option.toList, List.singleton_append] at here
      simpa using here.erase ticket
    | false => simpa [own] using here
  · have own := orderly.standing key
    rw [tickets_cons] at own
    simp only [BEq.rfl, if_true, stands, Option.toList, List.singleton_append] at own
    exact own.mem_iff.mp List.mem_cons_self
  · intro own
    simp only [own, if_true, stands, Option.toList, List.singleton_append] at here
    exact (List.nodup_cons.mp (here.symm.nodup (orderly.distinct k))).1

theorem leave (orderly : Orderly m ((key, l) :: visits)) {ticket : Nat}
    (stands : l.ticket? = some ticket) : Orderly (m.leave key ticket) visits where
  below := by
    intro k t member
    rw [slot_leave] at member
    cases own : key == k with
    | true =>
      simp only [own, if_true] at member
      exact orderly.below k t (List.mem_of_mem_erase member)
    | false =>
      simp only [own] at member
      exact orderly.below k t member
  distinct := by
    intro k
    rw [slot_leave]
    cases own : key == k with
    | true => exact (orderly.distinct k).erase ticket
    | false => exact orderly.distinct k
  standing k := (orderly.standing_cons stands k).1
  turn := by
    intro k t call member
    have head := isTurn_iff.mp (orderly.turn k t call (List.mem_cons_of_mem _ member))
    rw [isTurn_iff, slot_leave]
    cases own : key == k with
    | false => exact head
    | true =>
      have gone := (orderly.standing_cons stands k).2.2 own
      have differs : t ≠ ticket := fun same =>
        gone (mem_tickets.mpr ⟨_, member, BEq.rfl, congrArg some same⟩)
      simp only [if_true]
      cases queue : (m.slot k).queue with
      | nil =>
        rw [queue] at head
        cases head
      | cons first queue' =>
        rw [queue] at head
        cases head
        rw [List.erase_cons_tail (by simpa using differs)]
        rfl

theorem enter (orderly : Orderly m ((key, .idle) :: visits)) :
    Orderly (m.enter key).2 ((key, .queued m.nextTicket) :: visits) where
  below := by
    intro k t member
    change t < m.nextTicket + 1
    rw [slot_enter] at member
    cases own : key == k with
    | true =>
      simp only [own, if_true, List.mem_append, List.mem_singleton] at member
      rcases member with member | rfl
      · exact Nat.lt_succ_of_lt (orderly.below k t member)
      · exact Nat.lt_succ_self _
    | false =>
      simp only [own] at member
      exact Nat.lt_succ_of_lt (orderly.below k t member)
  distinct := by
    intro k
    rw [slot_enter]
    cases own : key == k with
    | true =>
      refine List.nodup_append.mpr ⟨orderly.distinct k, by simp, ?_⟩
      intro t member t' last same
      cases List.mem_singleton.mp last
      exact absurd same (Nat.ne_of_lt (orderly.below k t member))
    | false => exact orderly.distinct k
  standing := by
    intro k
    have here := ((idle_iff rfl).mp orderly).standing k
    rw [tickets_cons, slot_enter]
    cases own : key == k with
    | true =>
      simp only [if_true, Lookup.ticket?, Option.toList]
      exact (here.cons m.nextTicket).trans (List.perm_append_singleton _ _).symm
    | false => exact here
  turn := by
    intro k t call member
    rcases List.mem_cons.mp member with first | member
    · cases first
    · have head := isTurn_iff.mp (orderly.turn k t call (List.mem_cons_of_mem _ member))
      rw [isTurn_iff, slot_enter]
      cases own : key == k with
      | true => simp [head]
      | false => exact head

theorem alone (orderly : Orderly m ((key, l) :: visits)) {ticket : Nat}
    (stands : l.ticket? = some ticket) (turn : m.isTurn key ticket = true) {k : κ} {t : Nat}
    {call : Pending ε ν} (member : (k, .computing t call) ∈ visits) : (k == key) = false := by
  apply Bool.eq_false_iff.mpr
  intro same
  have theirs := orderly.turn k t call (List.mem_cons_of_mem _ member)
  rw [isTurn_congr same, isTurn_iff, isTurn_iff.mp turn] at theirs
  cases theirs
  exact (orderly.standing_cons stands key).2.2 BEq.rfl
    (mem_tickets.mpr ⟨_, member, same, rfl⟩)

theorem pairwise (orderly : m.Orderly visits) : visits.Pairwise fun v w =>
    (v.1 == w.1) = true → v.2.isComputing = true → w.2.isComputing = false := by
  rw [List.pairwise_iff_forall_sublist]
  intro v w both same first
  obtain ⟨k, l⟩ := v
  obtain ⟨k', l'⟩ := w
  cases l with
  | computing ticket call =>
    cases l' with
    | computing ticket' call' =>
      have turn := orderly.turn k ticket call (both.subset (by simp))
      have turn' := orderly.turn k' ticket' call' (both.subset (by simp))
      rw [isTurn_congr same, isTurn_iff] at turn
      rw [isTurn_iff, turn] at turn'
      cases turn'
      -- Two places in the queue would be one ticket.
      have twice : [ticket, ticket].Sublist (tickets k' visits) := by
        have among := both.filterMap fun v => if v.1 == k' then v.2.ticket? else none
        simp only [List.filterMap_cons, same, BEq.rfl, if_true, Lookup.ticket?,
          List.filterMap_nil] at among
        exact among
      have distinct := (orderly.standing k').symm.nodup (orderly.distinct k')
      simpa using distinct.sublist twice
    | idle | queued _ | done _ => rfl
  | idle | queued _ | done _ => cases first

theorem store (orderly : Orderly m visits) (value : ν) (now : Instant) :
    Orderly (m.store key value now) visits := by
  have queues : ∀ k, ((m.store key value now).slot k).queue = (m.slot k).queue := by
    intro k
    rw [slot_store]
    cases key == k <;> rfl
  refine ⟨fun k => ?_, fun k => ?_, fun k => ?_, fun k t call member => ?_⟩
  · rw [queues]
    exact orderly.below k
  · rw [queues]
    exact orderly.distinct k
  · rw [queues]
    exact orderly.standing k
  · rw [isTurn, queues]
    exact orderly.turn k t call member

theorem move (orderly : Orderly m ((key, l) :: visits)) {start : ω → Pending ε ν × ω}
    {clock : Clock} {w w' : ω} {l' : Lookup ε ν} {m' : Memo κ ν}
    (moved : l.Moved start key clock m w l' m' w') : Orderly m' ((key, l') :: visits) := by
  cases moved with
  | entered => exact orderly.enter
  | recalled turn fresh => exact (idle_iff rfl).mpr (orderly.leave rfl)
  | @began ticket turn stale =>
    refine ⟨orderly.below, orderly.distinct, orderly.standing, ?_⟩
    intro k t call member
    rcases List.mem_cons.mp member with first | member
    · cases first
      exact turn
    · exact orderly.turn k t call (List.mem_cons_of_mem _ member)
  | stored answer => exact (idle_iff rfl).mpr ((orderly.store _ _).leave rfl)
  | failed answer => exact (idle_iff rfl).mpr (orderly.leave rfl)

theorem drop (orderly : Orderly m ((key, l) :: visits)) : Orderly (l.drop key m) visits := by
  cases l with
  | idle => exact (idle_iff rfl).mp orderly
  | queued ticket => exact orderly.leave rfl
  | computing ticket call => exact orderly.leave rfl
  | done r => exact (idle_iff rfl).mp orderly

end Orderly

end Memo

end PriceDesk
