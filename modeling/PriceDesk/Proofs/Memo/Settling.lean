import PriceDesk.Memo.Lookup

namespace PriceDesk

namespace Pending

variable {ε α : Type} {p : Pending ε α} {now start : Instant}

theorem isSome_poll_iff : (p.poll now).isSome ↔ ∃ t ∈ p.wakes, t ≤ now := by
  obtain ⟨readyAt, outcome, cutoff⟩ := p
  cases readyAt with
  | none =>
    cases cutoff with
    | none => simp [poll, wakes]
    | some limit =>
      by_cases late : limit.1 ≤ now <;> simp [poll, wakes, late]
  | some t =>
    by_cases ready : t ≤ now
    · simp [poll, wakes, ready]
    · cases cutoff with
      | none => simp [poll, wakes, ready]
      | some limit =>
        by_cases late : limit.1 ≤ now <;> simp [poll, wakes, ready, late]

theorem poll_of_ready {t : Instant} (ready : p.readyAt = some t) (arrived : t ≤ now) :
    p.poll now = some p.outcome := by
  simp [poll, ready, arrived]

theorem conclude_of_poll {r : Except ε α} (there : p.poll start = some r) :
    p.conclude start = (start, r) := by
  simp [conclude, there]

theorem conclude_at_once (outcome : Except ε α) :
    ({ readyAt := some now, outcome } : Pending ε α).conclude now = (now, outcome) := by
  simp [conclude, poll]

theorem conclude_of_wait (waits : p.poll start = none) (ends : p.wakes ≠ []) :
    (p.conclude start).1 ∈ p.wakes ∧ (∀ t ∈ p.wakes, (p.conclude start).1 ≤ t) ∧
      p.poll (p.conclude start).1 = some (p.conclude start).2 := by
  obtain ⟨t, first⟩ := Option.isSome_iff_exists.mp (List.isSome_min?_of_ne_nil ends)
  obtain ⟨wakes, least⟩ := List.min?_eq_some_iff.mp first
  have there := isSome_poll_iff.mpr ⟨t, wakes, Nat.le_refl t⟩
  obtain ⟨r, answer⟩ := Option.isSome_iff_exists.mp there
  have concludes : p.conclude start = (t, r) := by
    simp [conclude, waits, earliest?, first, answer]
  rw [concludes]
  exact ⟨wakes, least, answer⟩

theorem conclude_le {t : Instant} (since : start ≤ t) (wakes : t ∈ p.wakes) :
    (p.conclude start).1 ≤ t := by
  cases there : p.poll start with
  | some r =>
    rw [conclude_of_poll there]
    exact since
  | none => exact (conclude_of_wait there (List.ne_nil_of_mem wakes)).2.1 t wakes

theorem le_conclude (ends : p.wakes ≠ []) : now ≤ (p.conclude now).1 := by
  cases there : p.poll now with
  | some r => exact Nat.le_of_eq (congrArg Prod.fst (conclude_of_poll there)).symm
  | none =>
    obtain ⟨wakes, -, -⟩ := conclude_of_wait there ends
    apply Nat.le_of_not_lt
    intro passed
    have answer := isSome_poll_iff.mpr ⟨_, wakes, Nat.le_of_lt passed⟩
    rw [there] at answer
    cases answer

theorem poll_until_conclude (ends : p.wakes ≠ []) (since : start ≤ now)
    (due : now ≤ (p.conclude start).1) :
    p.poll now = some (p.conclude start).2 ∨
      p.poll now = none ∧ now < (p.conclude start).1 ∧ (p.conclude start).1 ∈ p.wakes := by
  cases there : p.poll start with
  | some r =>
    rw [conclude_of_poll there] at due ⊢
    have same : now = start := Nat.le_antisymm due since
    exact .inl (same ▸ there)
  | none =>
    obtain ⟨wakes, least, answer⟩ := conclude_of_wait there ends
    by_cases early : now < (p.conclude start).1
    · refine .inr ⟨?_, early, wakes⟩
      rw [← Option.not_isSome_iff_eq_none, isSome_poll_iff]
      rintro ⟨t, woken, passed⟩
      exact Nat.not_lt.mpr (Nat.le_trans (least t woken) passed) early
    · have same : now = (p.conclude start).1 := Nat.le_antisymm due (Nat.le_of_not_lt early)
      rw [same]
      exact .inl answer

theorem poll_conclude (ends : p.wakes ≠ []) (now : Instant) :
    p.poll (p.conclude now).1 = some (p.conclude now).2 := by
  cases there : p.poll now with
  | some r => rw [conclude_of_poll there, there]
  | none => exact (conclude_of_wait there ends).2.2

theorem conclude_in_time (now : Instant) {t : Instant} (ready : p.readyAt = some t)
    (soon : ∀ limit, p.cutoff = some limit → t ≤ limit.1) : (p.conclude now).2 = p.outcome := by
  have wakes : t ∈ p.wakes := by simp [Pending.wakes, ready]
  have answer := poll_conclude (List.ne_nil_of_mem wakes) now
  have passed : t ≤ (p.conclude now).1 := by
    obtain ⟨u, woken, passed⟩ := isSome_poll_iff.mp (Option.isSome_of_eq_some answer)
    rw [Pending.wakes, ready, List.mem_append] at woken
    rcases woken with here | there
    · have same : u = t := by simpa using here
      exact same ▸ passed
    · obtain ⟨limit, cutoff, rfl⟩ : ∃ limit, p.cutoff = some limit ∧ limit.1 = u := by
        simpa using there
      exact Nat.le_trans (soon limit cutoff) passed
  exact (Option.some.inj ((poll_of_ready ready passed).symm.trans answer)).symm

theorem conclude_late {limit : Instant × ε} (cutoff : p.cutoff = some limit)
    (begun : now ≤ limit.1) (late : ∀ t, p.readyAt = some t → limit.1 < t) :
    (p.conclude now).2 = .error limit.2 := by
  have wakes : limit.1 ∈ p.wakes := by simp [Pending.wakes, cutoff]
  have answer := poll_conclude (List.ne_nil_of_mem wakes) now
  have unready : p.readyAt.any (· ≤ (p.conclude now).1) = false := by
    cases ready : p.readyAt with
    | none => rfl
    | some t =>
      have before := Nat.lt_of_le_of_lt (conclude_le begun wakes) (late t ready)
      exact decide_eq_false (Nat.not_le.mpr before)
  simp only [poll, unready, cutoff, Bool.false_eq_true, if_false, Option.bind_some] at answer
  split at answer
  · exact (Option.some.inj answer).symm
  · cases answer

end Pending

namespace Lookup

variable {κ ε ν ω : Type} [BEq κ]

/-- Whether a lookup awaits a call that began at some instant, or has what it concludes in. -/
inductive Follows (call : Pending ε ν) (start now : Instant) : Lookup ε ν → Prop
  | awaits (ticket : Nat) (ends : call.wakes ≠ []) (due : now ≤ (call.conclude start).1) :
    Follows call start now (.computing ticket call)
  | has : Follows call start now (.done (call.conclude start).2)

theorem follows_at_once {now : Instant} (outcome : Except ε ν) :
    (done outcome).Follows { readyAt := some now, outcome } now now := by
  let call : Pending ε ν := { readyAt := some now, outcome }
  have answered : (done (call.conclude now).2).Follows call now now := .has
  have concludes : call.conclude now = (now, outcome) := Pending.conclude_at_once outcome
  rwa [concludes] at answered

section Settle

variable {begin : ω → Pending ε ν × ω} {key : κ} {clock : Clock} {m : Memo κ ν} {w : ω}

theorem settle_go_done (n : Nat) (b : Bool) (r : Except ε ν) :
    settle.go begin key clock n b m w (.done r) = (b, .done r, m, w) := by
  cases n <;> rfl

theorem settle_go_flag (n : Nat) (b : Bool) (l : Lookup ε ν) :
    settle.go begin key clock n b m w l =
      (b || (settle.go begin key clock n false m w l).1,
        (settle.go begin key clock n false m w l).2) := by
  cases n with
  | zero => simp [settle.go]
  | succ n =>
    cases moved : l.step begin key clock m w with
    | none => simp [settle.go, moved]
    | some next =>
      have always : ∀ (n : Nat) (m : Memo κ ν) (w : ω) (l : Lookup ε ν),
          (settle.go begin key clock n true m w l).1 = true := by
        intro n
        induction n with
        | zero => exact fun _ _ _ => rfl
        | succ n ih =>
          intro m w l
          unfold settle.go
          split
          · exact ih _ _ _
          · rfl
      have flagged : ∀ b : Bool, settle.go begin key clock (n + 1) b m w l =
          settle.go begin key clock n true next.2.1 next.2.2 next.1 := by
        intro b
        simp [settle.go, moved]
      rw [flagged b, flagged false]
      exact Prod.ext (by simp [always]) rfl

/-- What settling makes of a lookup that follows a call: it takes what is there, or still waits. -/
structure Settles (call : Pending ε ν) (start now : Instant) (w : ω) (l : Lookup ε ν)
    (settled : Bool × Lookup ε ν × Memo κ ν × ω) : Prop where
  follows : settled.2.1.Follows call start now
  world : settled.2.2.2 = w
  took : settled.1 = true → l.result? = none ∧ settled.2.1.result?.isSome
  waits : settled.1 = false → settled.2.1 = l ∧
    (l.result? = none → now < (call.conclude start).1 ∧ (call.conclude start).1 ∈ l.wakes)

theorem settle_follows {call : Pending ε ν} {start : Instant} {l : Lookup ε ν}
    (follows : l.Follows call start clock.now) (since : start ≤ clock.now) :
    Settles call start clock.now w l (settle begin key clock m w l) := by
  cases follows with
  | has =>
    rw [settle, settle_go_done]
    exact ⟨.has, rfl, nofun, fun _ => ⟨rfl, nofun⟩⟩
  | awaits ticket ends due =>
    rcases Pending.poll_until_conclude ends since due with answer | ⟨none, early, wakes⟩
    · cases outcome : (call.conclude start).2 with
      | ok value =>
        rw [outcome] at answer
        simp only [settle, settle.go, step, answer]
        refine ⟨outcome ▸ .has, rfl, fun _ => ⟨rfl, rfl⟩, nofun⟩
      | error e =>
        rw [outcome] at answer
        simp only [settle, settle.go, step, answer]
        refine ⟨outcome ▸ .has, rfl, fun _ => ⟨rfl, rfl⟩, nofun⟩
    · simp only [settle, settle.go, step, none]
      exact ⟨.awaits ticket ends due, rfl, nofun, fun _ => ⟨rfl, fun _ => ⟨early, wakes⟩⟩⟩

/-- What a caller comes to whose turn it is: it takes the value that is fresh, or else begins to
compute one. -/
def onTurn (now : Instant) (begin : ω → Pending ε ν × ω) : Option ν → ω → Pending ε ν × ω
  | some value, w => ({ readyAt := some now, outcome := .ok value }, w)
  | none, w => begin w

variable [LawfulBEq κ]

theorem settle_idle (alone : (m.slot key).queue = []) (ends : (begin w).1.wakes ≠ []) :
    let turn := onTurn clock.now begin (m.fresh? key clock.wall) w
    ∃ l m', settle begin key clock m w .idle = (true, l, m', turn.2) ∧
      l.Follows turn.1 clock.now clock.now ∧ m'.ttl = m.ttl ∧
      ∀ k, key ≠ k → m'.slot k = m.slot k := by
  intro turn
  have own : (m.enter key).2.slot key = { m.slot key with queue := [m.nextTicket] } := by
    rw [Memo.slot_enter, alone]
    simp
  have first : (m.enter key).2.isTurn key m.nextTicket = true := by
    rw [Memo.isTurn_iff, own]
    rfl
  have same : (m.enter key).2.fresh? key clock.wall = m.fresh? key clock.wall := by
    simp only [Memo.fresh?, own]
    rfl
  have apart {k : κ} (other : key ≠ k) : (m.enter key).2.slot k = m.slot k := by
    simp [Memo.slot_enter, other]
  have enters : (Lookup.idle : Lookup ε ν).step begin key clock m w =
      some (.queued m.nextTicket, (m.enter key).2, w) := rfl
  cases known : m.fresh? key clock.wall with
  | some value =>
    have recalls :
        (Lookup.queued m.nextTicket : Lookup ε ν).step begin key clock (m.enter key).2 w =
          some (.done (.ok value), (m.enter key).2.leave key m.nextTicket, w) := by
      simp [step, first, same, known]
    have came : turn = ({ readyAt := some clock.now, outcome := .ok value }, w) := by
      simp only [turn, known, onTurn]
    rw [came]
    refine ⟨_, (m.enter key).2.leave key m.nextTicket, ?_, follows_at_once (.ok value), rfl,
      fun k other => ?_⟩
    · simp only [settle, settle.go, enters, recalls]
      rfl
    · simp [Memo.slot_leave, other, apart other]
  | none =>
    have begins : (Lookup.queued m.nextTicket : Lookup ε ν).step begin key clock (m.enter key).2 w =
        some (.computing m.nextTicket (begin w).1, (m.enter key).2, (begin w).2) := by
      simp [step, first, same, known]
    have came : turn = begin w := by simp only [turn, known, onTurn]
    rw [came]
    simp only [settle, settle.go, enters, begins]
    cases answer : (begin w).1.poll clock.now with
    | none =>
      simp only [step, answer]
      exact ⟨_, _, rfl, .awaits _ ends (Pending.le_conclude ends), rfl, fun k other => apart other⟩
    | some r =>
      have concludes : ((begin w).1.conclude clock.now).2 = r := by
        rw [Pending.conclude_of_poll answer]
      cases r with
      | ok value =>
        simp only [step, answer]
        refine ⟨_, _, rfl, concludes ▸ .has, rfl, fun k other => ?_⟩
        simp [Memo.slot_leave, Memo.slot_store, other, apart other]
      | error e =>
        simp only [step, answer]
        refine ⟨_, _, rfl, concludes ▸ .has, rfl, fun k other => ?_⟩
        simp [Memo.slot_leave, other, apart other]

end Settle

end Lookup

end PriceDesk
