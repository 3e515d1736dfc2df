import PriceDesk.Json.Basic

namespace PriceDesk

inductive SkipReason where
  | pairsUnavailable (message : String)
  | noPricingProvider
  | notListed
deriving DecidableEq, Repr

def SkipReason.message : SkipReason → String
  | .pairsUnavailable message => s!"pairs unavailable: {message}"
  | .noPricingProvider => "no pricing provider"
  | .notListed => "not listed"

structure Attempt where
  provider : String
  skipped : Option SkipReason := none
  matched : Bool := false
deriving DecidableEq, Repr

namespace Attempt

def matching (provider : String) : Attempt := { provider, matched := true }

def skip (provider : String) (reason : SkipReason) : Attempt :=
  { provider, skipped := some reason }

def message (a : Attempt) : String :=
  if a.matched then s!"{a.provider}: MATCH"
  else
    match a.skipped with
    | some reason => s!"{a.provider}: SKIPPED ({reason.message})"
    | none => s!"{a.provider}: UNKNOWN"

end Attempt

structure Diagnostics where
  attempts : List Attempt := []
deriving DecidableEq, Repr

namespace Diagnostics

def record (d : Diagnostics) (a : Attempt) : Diagnostics := ⟨d.attempts ++ [a]⟩

def summary (d : Diagnostics) : String := " -> ".intercalate (d.attempts.map Attempt.message)

def hasMatch (d : Diagnostics) : Bool := d.attempts.any (·.matched)

def skips (d : Diagnostics) : List (String × SkipReason) :=
  d.attempts.filterMap fun a => a.skipped.map (a.provider, ·)

end Diagnostics

end PriceDesk
