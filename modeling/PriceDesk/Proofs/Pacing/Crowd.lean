import PriceDesk.Pacing.Throttle

namespace PriceDesk

/-- An attempt: when its caller read the clock, when it had its turn, and what it was told. -/
structure Try where
  instant : Instant
  turn : Instant
  safe : Bool
deriving DecidableEq

structure Crowd (σ : Type) where
  callers : List Throttle := []
  now : Instant
  state : σ

namespace Crowd

variable {σ : Type}

/-- What happens in a crowd: somebody comes, the caller at a position moves, or time passes. -/
inductive Event where
  | arrive
  | move (caller : Nat)
  | pass (d : Duration)

def step (g : Gauge σ) (tier : Tier) (c : Crowd σ) : Event → Crowd σ
  | .arrive => { c with callers := c.callers ++ [.asking] }
  | .move i =>
    match c.callers[i]? with
    | some caller =>
      let (caller, state) := caller.step g tier c.now c.state
      { c with callers := c.callers.set i caller, state }
    | none => c
  | .pass d => { c with now := c.now + d }

def after (g : Gauge σ) (tier : Tier) (events : List Event) (c : Crowd σ) : Crowd σ :=
  events.foldl (step g tier) c

def tried (g : Gauge σ) (tier : Tier) (c : Crowd σ) : Event → List Try
  | .move i =>
    match c.callers[i]? with
    | some (.trying read) => [⟨read, c.now, (g.isSafe tier read c.state).1⟩]
    | _ => []
  | .arrive | .pass _ => []

def tries (g : Gauge σ) (tier : Tier) : List Event → Crowd σ → List Try
  | [], _ => []
  | event :: events, c => c.tried g tier event ++ tries g tier events (c.step g tier event)

end Crowd

def Throttle.isAdmittedAt (q : Instant → Bool) : Throttle → Bool
  | .admitted a => q a
  | _ => false

def Throttle.HasReadBy (now : Instant) : Throttle → Prop
  | .reckoning read | .trying read | .admitted read => read ≤ now
  | _ => True

theorem Throttle.HasReadBy.mono {now later : Instant} {caller : Throttle} (le : now ≤ later)
    (read : caller.HasReadBy now) : caller.HasReadBy later := by
  cases caller with
  | reckoning _ | trying _ | admitted _ => exact Nat.le_trans read le
  | asking | waiting _ | resting _ | lost => trivial

namespace Throttle

variable {tier : Tier} {now read : Instant} {l : Limiter} {caller : Throttle}

theorem attempt_gauge (tier : Tier) (read now : Instant) (l : Limiter) :
    (attempt Limiter.gauge tier read now l).2 = (l.isSafe tier read).2 ∧
      ∀ q, (attempt Limiter.gauge tier read now l).1.isAdmittedAt q =
        ((l.isSafe tier read).1 && q read) := by
  simp only [attempt, Limiter.gauge]
  cases l.isSafe tier read with
  | mk safe l' => cases safe <;> exact ⟨rfl, fun _ => rfl⟩

theorem step_of_ne_trying (tier : Tier) (now : Instant) (l : Limiter)
    (other : ∀ read, caller ≠ .trying read) :
    (caller.step Limiter.gauge tier now l).2 = l ∧
      ∀ q, (caller.step Limiter.gauge tier now l).1.isAdmittedAt q = caller.isAdmittedAt q := by
  cases caller with
  | asking | admitted _ | lost => exact ⟨rfl, fun _ => rfl⟩
  | trying read => exact absurd rfl (other read)
  | reckoning read =>
    simp only [step, reckon, Limiter.gauge]
    cases l.timeUntilSafe? tier read <;> exact ⟨rfl, fun _ => rfl⟩
  | waiting wake =>
    refine ⟨rfl, fun _ => ?_⟩
    simp only [step]
    split <;> rfl
  | resting wake =>
    refine ⟨rfl, fun _ => ?_⟩
    simp only [step]
    split <;> rfl

theorem HasReadBy.step (past : caller.HasReadBy now) :
    (caller.step Limiter.gauge tier now l).1.HasReadBy now := by
  cases caller with
  | asking => exact Nat.le_refl now
  | admitted _ => exact past
  | lost => trivial
  | reckoning read =>
    simp only [Throttle.step, reckon, Limiter.gauge]
    cases l.timeUntilSafe? tier read <;> trivial
  | waiting wake =>
    simp only [Throttle.step]
    split
    · exact Nat.le_refl now
    · trivial
  | resting wake =>
    simp only [Throttle.step]
    split <;> trivial
  | trying read =>
    simp only [Throttle.step, attempt, Limiter.gauge]
    cases l.isSafe tier read with
    | mk safe l' =>
      cases safe
      · trivial
      · exact past

end Throttle

end PriceDesk
