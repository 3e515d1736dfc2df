import PriceDesk.Memo.Basic
import PriceDesk.Time.Clock
import PriceDesk.Time.Pending

namespace PriceDesk

/-- Where a caller for a value stands. -/
inductive Lookup (ε ν : Type) where
  | idle
  | queued (ticket : Nat)
  | computing (ticket : Nat) (call : Pending ε ν)
  | done (result : Except ε ν)

namespace Lookup

variable {κ ε ν ω : Type} [BEq κ]

def result? : Lookup ε ν → Option (Except ε ν)
  | .done r => some r
  | _ => none

def wakes : Lookup ε ν → List Instant
  | .computing _ call => call.wakes
  | _ => []

/-- One move of a caller for `key`. `start` begins the computation in the world `ω`. There is none
where the caller has to wait or is done. -/
def step (start : ω → Pending ε ν × ω) (key : κ) (clock : Clock) (m : Memo κ ν) (w : ω) :
    Lookup ε ν → Option (Lookup ε ν × Memo κ ν × ω)
  | .idle =>
    let (ticket, m) := m.enter key
    some (.queued ticket, m, w)
  | .queued ticket =>
    if m.isTurn key ticket then
      match m.fresh? key clock.wall with
      | some value => some (.done (.ok value), m.leave key ticket, w)
      | none =>
        let (call, w) := start w
        some (.computing ticket call, m, w)
    else none
  | .computing ticket call =>
    match call.poll clock.now with
    | some (.ok value) =>
      some (.done (.ok value), (m.store key value clock.wall).leave key ticket, w)
    | some (.error e) => some (.done (.error e), m.leave key ticket, w)
    | none => none
  | .done _ => none

/-- The moves that are possible now; there are three at most. Tells whether there was one. -/
def settle (start : ω → Pending ε ν × ω) (key : κ) (clock : Clock) (m : Memo κ ν) (w : ω)
    (l : Lookup ε ν) : Bool × Lookup ε ν × Memo κ ν × ω :=
  go 3 false m w l
where
  go : Nat → Bool → Memo κ ν → ω → Lookup ε ν → Bool × Lookup ε ν × Memo κ ν × ω
    | 0, moved, m, w, l => (moved, l, m, w)
    | n + 1, moved, m, w, l =>
      match l.step start key clock m w with
      | some (l, m, w) => go n true m w l
      | none => (moved, l, m, w)

def drop (key : κ) (m : Memo κ ν) : Lookup ε ν → Memo κ ν
  | .queued ticket | .computing ticket _ => m.leave key ticket
  | .idle | .done _ => m

end Lookup

end PriceDesk
