import PriceDesk.Pacing.Window

namespace PriceDesk

/-- What a throttled caller asks, over the state `σ`. -/
structure Gauge (σ : Type) where
  timeUntilSafe? : Tier → Instant → σ → Option Duration × σ
  isSafe : Tier → Instant → σ → Bool × σ
  rest : σ → Duration × σ

def Limiter.gauge : Gauge Limiter where
  timeUntilSafe? tier now l := (l.timeUntilSafe? tier now, l)
  isSafe tier now l := l.isSafe tier now
  rest l := (l.pause, l)

/-- Where a throttled caller stands. -/
inductive Throttle where
  | asking
  | reckoning (read : Instant)
  | waiting (wake : Instant)
  | trying (read : Instant)
  | resting (wake : Instant)
  | admitted (at_ : Instant)
  | lost
deriving DecidableEq, Repr

namespace Throttle

variable {σ : Type}

def reckon (g : Gauge σ) (tier : Tier) (read now : Instant) (s : σ) : Throttle × σ :=
  match g.timeUntilSafe? tier read s with
  | (some wait, s) => (.waiting (now + wait), s)
  | (none, s) => (.lost, s)

def attempt (g : Gauge σ) (tier : Tier) (read now : Instant) (s : σ) : Throttle × σ :=
  match g.isSafe tier read s with
  | (true, s) => (.admitted read, s)
  | (false, s) =>
    let (pause, s) := g.rest s
    (.resting (now + pause), s)

def step (g : Gauge σ) (tier : Tier) (now : Instant) (s : σ) : Throttle → Throttle × σ
  | .asking => (.reckoning now, s)
  | .reckoning read => reckon g tier read now s
  | .waiting wake => (if wake ≤ now then .trying now else .waiting wake, s)
  | .trying read => attempt g tier read now s
  | .resting wake => (if wake ≤ now then .asking else .resting wake, s)
  | .admitted t => (.admitted t, s)
  | .lost => (.lost, s)

def wake (now : Instant) : Throttle → Instant
  | .waiting wake | .resting wake => max now wake
  | .asking | .reckoning _ | .trying _ | .admitted _ | .lost => now

/-- Where a caller that is alone stands after so many moves, when, and in which state. -/
def run (g : Gauge σ) (tier : Tier) : Nat → Throttle → Instant → σ → Throttle × Instant × σ
  | 0, stage, now, s => (stage, now, s)
  | moves + 1, stage, now, s =>
    let now := stage.wake now
    let (stage, s) := stage.step g tier now s
    run g tier moves stage now s

def promptMoves : Nat := 4

end Throttle

inductive Pace where
  | free
  | windowed (l : Limiter)

namespace Pace

def isSafe (tier : Tier) (now : Instant) : Pace → Bool × Pace
  | .free => (true, .free)
  | .windowed l =>
    let (safe, l) := l.isSafe tier now
    (safe, .windowed l)

def timeUntilSafe? (tier : Tier) (now : Instant) : Pace → Option Duration
  | .free => some 0
  | .windowed l => l.timeUntilSafe? tier now

def pause : Pace → Duration
  | .free => 0
  | .windowed l => l.pause

def gauge : Gauge Pace where
  timeUntilSafe? tier now p := (p.timeUntilSafe? tier now, p)
  isSafe tier now p := p.isSafe tier now
  rest p := (p.pause, p)

/-- When a caller that throttles itself is admitted, and the pace after its attempt. A caller that
is alone is admitted at its first attempt or lost. -/
def acquire? (tier : Tier) (now : Instant) (p : Pace) : Option (Instant × Pace) :=
  match Throttle.run gauge tier Throttle.promptMoves .asking now p with
  | (.admitted t, _, p) => some (t, p)
  | _ => none

end Pace

end PriceDesk
