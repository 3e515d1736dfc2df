import PriceDesk.Time.Duration

namespace PriceDesk

structure Memo.Entry (ν : Type) where
  value : ν
  created : Instant

/-- What is kept for a key: its value, and the tickets of those who stand in its queue. -/
structure Memo.Slot (ν : Type) where
  entry : Option (Memo.Entry ν) := none
  queue : List Nat := []

/-- A table of values with a time to live. -/
structure Memo (κ ν : Type) where
  ttl : Duration
  slots : List (κ × Memo.Slot ν) := []
  nextTicket : Nat := 0

namespace Memo

variable {κ ν : Type} [BEq κ]

def slot (m : Memo κ ν) (key : κ) : Slot ν := (m.slots.lookup key).getD {}

def modifySlot (m : Memo κ ν) (key : κ) (f : Slot ν → Slot ν) : Memo κ ν :=
  { m with slots := go m.slots }
where
  go : List (κ × Slot ν) → List (κ × Slot ν)
    | [] => [(key, f {})]
    | (k, s) :: rest => if key == k then (k, f s) :: rest else (k, s) :: go rest

def size (m : Memo κ ν) : Nat := m.slots.length

def enter (m : Memo κ ν) (key : κ) : Nat × Memo κ ν :=
  (m.nextTicket,
   { m.modifySlot key fun s => { s with queue := s.queue ++ [m.nextTicket] } with
     nextTicket := m.nextTicket + 1 })

def isTurn (m : Memo κ ν) (key : κ) (ticket : Nat) : Bool :=
  (m.slot key).queue.head? == some ticket

def leave (m : Memo κ ν) (key : κ) (ticket : Nat) : Memo κ ν :=
  m.modifySlot key fun s => { s with queue := s.queue.erase ticket }

def fresh? (m : Memo κ ν) (key : κ) (now : Instant) : Option ν :=
  ((m.slot key).entry.filter fun e => now - e.created < m.ttl).map (·.value)

def store (m : Memo κ ν) (key : κ) (value : ν) (now : Instant) : Memo κ ν :=
  m.modifySlot key fun s => { s with entry := some ⟨value, now⟩ }

def peek (m : Memo κ ν) (key : κ) (now : Instant) : Option ν :=
  if (m.slot key).queue.isEmpty then m.fresh? key now else none

section Slots

variable {m : Memo κ ν} {key k : κ} {ticket : Nat}

theorem isTurn_iff : m.isTurn key ticket = true ↔ (m.slot key).queue.head? = some ticket :=
  beq_iff_eq

theorem fresh?_eq_some_iff {now : Instant} {value : ν} :
    m.fresh? key now = some value ↔
      ∃ e, (m.slot key).entry = some e ∧ now - e.created < m.ttl ∧ e.value = value := by
  cases entry : (m.slot key).entry with
  | none => simp [fresh?, entry]
  | some e =>
    simp only [fresh?, entry, Option.some.injEq, exists_eq_left']
    by_cases young : now - e.created < m.ttl <;> simp [Option.filter, young]

theorem stale_of_fresh?_eq_none {now : Instant} {e : Entry ν} (none : m.fresh? key now = none)
    (entry : (m.slot key).entry = some e) : m.ttl ≤ now - e.created := by
  apply Nat.le_of_not_lt
  intro young
  rw [fresh?_eq_some_iff.mpr ⟨e, entry, young, rfl⟩] at none
  cases none

variable [EquivBEq κ]

theorem lookup_go (f : Slot ν → Slot ν) (slots : List (κ × Slot ν)) :
    ((modifySlot.go key f slots).lookup k).getD {} =
      if key == k then f ((slots.lookup k).getD {}) else (slots.lookup k).getD {} := by
  induction slots with
  | nil =>
    simp only [modifySlot.go, List.lookup_cons, List.lookup_nil, BEq.comm (a := k)]
    cases key == k <;> rfl
  | cons entry slots ih =>
    obtain ⟨other, s⟩ := entry
    simp only [modifySlot.go]
    cases own : key == other with
    | true =>
      simp only [if_true, List.lookup_cons]
      rw [BEq.congr_left own, BEq.comm (a := k)]
      cases other == k <;> rfl
    | false =>
      simp only [Bool.false_eq_true, if_false, List.lookup_cons]
      cases here : k == other with
      | false => exact ih
      | true =>
        have differs : (key == k) = false := (BEq.congr_right here).trans own
        simp [differs]

theorem slot_modifySlot (f : Slot ν → Slot ν) :
    (m.modifySlot key f).slot k = if key == k then f (m.slot k) else m.slot k :=
  lookup_go f m.slots

theorem slot_enter : (m.enter key).2.slot k =
    if key == k then { m.slot k with queue := (m.slot k).queue ++ [m.nextTicket] }
    else m.slot k :=
  slot_modifySlot _

theorem slot_leave : (m.leave key ticket).slot k =
    if key == k then { m.slot k with queue := (m.slot k).queue.erase ticket } else m.slot k :=
  slot_modifySlot _

theorem slot_store {value : ν} {now : Instant} : (m.store key value now).slot k =
    if key == k then { m.slot k with entry := some ⟨value, now⟩ } else m.slot k :=
  slot_modifySlot _

end Slots

end Memo

end PriceDesk
