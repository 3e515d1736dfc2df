import PriceDesk.Json.Basic
import PriceDesk.Memo.Lookup

namespace PriceDesk

inductive Memo.Request where
  | get (key : String) (latency : Duration) (answer : Except String Json)
  | peek (key : String)

inductive Memo.Answer where
  | got (result : Except String Json)
  | peeked (value : Option Json) (size : Nat)

structure Memo.Call where
  start : Instant
  request : Memo.Request
  lookup : Lookup String Json := .idle
  answer : Option Memo.Answer := none

/-- A table, the clock, the log of computations and the calls under way. -/
structure Memo.Session where
  memo : Memo String Json
  clock : Clock := {}
  log : List String := []
  calls : List Memo.Call := []

namespace Memo.Session

def compute (clock : Clock) (key : String) (latency : Duration) (answer : Except String Json)
    (log : List String) : Pending String Json × List String :=
  ({ readyAt := some (clock.now + latency), outcome := answer }, log ++ [s!"compute {key}"])

def poll (s : Session) (c : Memo.Call) : Bool × Memo.Call × Session :=
  if c.answer.isSome || s.clock.now < c.start then (false, c, s)
  else
    match c.request with
    | .peek key =>
      let answer := .peeked (s.memo.peek key s.clock.wall) s.memo.size
      (true, { c with answer := some answer }, s)
    | .get key latency answer =>
      let (moved, lookup, memo, log) :=
        c.lookup.settle (compute s.clock key latency answer) key s.clock s.memo s.log
      (moved, { c with lookup, answer := lookup.result?.map .got }, { s with memo, log })

def round (s : Session) : Bool × Session :=
  let (moved, calls, s) := s.calls.foldl
    (fun (moved, calls, s) c =>
      let (m, c, s) := poll s c
      (moved || m, calls ++ [c], s))
    (false, [], s)
  (moved, { s with calls })

def wakes (s : Session) : List Instant :=
  s.calls.flatMap fun c => if s.clock.now < c.start then [c.start] else c.lookup.wakes

def schedule : Schedule Session where
  round := round
  wakes := wakes
  now s := s.clock.now
  tick t s := { s with clock := s.clock.advance t }

def run (s : Session) (calls : List (Duration × Memo.Request)) :
    List (Option Memo.Answer) × Session :=
  let begun := calls.map fun (delay, request) =>
    { start := s.clock.now + delay, request : Memo.Call }
  let s := { s with calls := begun }
  let s := schedule.run (8 * calls.length + 8) s
  (s.calls.map (·.answer), { s with calls := [] })

def takeLog (s : Session) : List String × Session := (s.log, { s with log := [] })

def wait (s : Session) (d : Duration) : Session := { s with clock := s.clock.pass d }

end Memo.Session

namespace Memo.Answer

def toJson : Memo.Answer → Json
  | .got (.ok value) => .ofMembers [("ok", value)]
  | .got (.error text) => .ofMembers [("fail", .str text)]
  | .peeked value size => .ofMembers [("peek", .orNull value), ("len", .ofNat size)]

end Memo.Answer

end PriceDesk
