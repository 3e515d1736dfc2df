import PriceDesk.Desk.Run

namespace PriceDesk

structure Visit where
  key : RequestKey
  delay : Duration := 0
  patience : Option Duration := none

inductive Visit.Outcome where
  | priced (result : PriceResult)
  | cancelled

structure Visitor where
  visit : Visit
  start : Instant
  caller : Option Nat := none
  outcome : Option Visit.Outcome := none

def Visitor.leavesAt (v : Visitor) : Option Instant := v.visit.patience.map (v.start + ·)

structure Rush (ω : Type) where
  desk : Desk ω
  visitors : List Visitor
  probeAt : Instant
  probe : Option Nat := none

namespace Rush

variable {ω : Type}

/-- Polls a visitor. Who has an answer takes it; who has none and no patience left goes away. -/
def pollVisitor (s : Setup ω) (d : Desk ω) (v : Visitor) : Bool × Visitor × Desk ω :=
  let now := d.floor.clock.now
  if v.outcome.isSome || now < v.start then (false, v, d)
  else
    let (id, m) :=
      match v.caller with
      | some id => (id, (false, d))
      | none => (d.nextCaller, Desk.attempt s (false, d) (.request v.visit.key))
    let v := { v with caller := some id }
    let m := Desk.pollCaller s m id
    match m.2.answer? id with
    | some r => (true, { v with outcome := some (.priced r) }, m.2)
    | none =>
      if v.leavesAt.any (· ≤ now) then
        (true, { v with outcome := some .cancelled }, (Desk.attempt s m (.drop id)).2)
      else (m.1, v, m.2)

def round (s : Setup ω) (r : Rush ω) : Bool × Rush ω :=
  let (moved, visitors, desk) := r.visitors.foldl
    (fun (moved, visitors, d) v =>
      let (m, v, d) := pollVisitor s d v
      (moved || m, visitors ++ [v], d))
    (false, [], r.desk)
  let r := { r with visitors, desk }
  if r.probe.isNone && r.probeAt ≤ desk.floor.clock.now then
    (true, { r with probe := some desk.inFlightCount })
  else (moved, r)

def wakes (r : Rush ω) : List Instant :=
  (if r.probe.isNone then [r.probeAt] else []) ++ r.desk.wakes ++
    r.visitors.flatMap fun v =>
      if v.outcome.isSome then []
      else v.start :: v.leavesAt.toList

def schedule (s : Setup ω) : Schedule (Rush ω) where
  round := round s
  wakes := wakes
  now r := r.desk.floor.clock.now
  tick t r := { r with desk := (Desk.attempt s (false, r.desk) (.tick t)).2 }

def run (s : Setup ω) (d : Desk ω) (visits : List Visit) (probeAfter : Duration) : Rush ω :=
  let now := d.floor.clock.now
  let r : Rush ω :=
    { desk := d
      visitors := visits.map fun visit => { visit, start := now + visit.delay }
      probeAt := now + probeAfter }
  let r := (schedule s).run (Desk.rounds s d (2 * visits.length + 1)) r
  { r with desk := r.desk.forget }

end Rush

end PriceDesk
