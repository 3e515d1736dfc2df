import PriceDesk.Desk.Step

namespace PriceDesk.Desk

variable {ω : Type}

def attempt (s : Setup ω) (m : Bool × Desk ω) (a : Action ω) : Bool × Desk ω :=
  match step s m.2 a with
  | some d => (true, d)
  | none => m

def attempts (s : Setup ω) (m : Bool × Desk ω) (as : List (Action ω)) : Bool × Desk ω :=
  as.foldl (attempt s) m

def exhaust (s : Setup ω) (a : Action ω) : Nat → Bool × Desk ω → Bool × Desk ω
  | 0, m => m
  | n + 1, m =>
    match step s m.2 a with
    | some d => exhaust s a n (true, d)
    | none => m

def pollSurvey (s : Setup ω) (owner : Owner) (size : Nat) (m : Bool × Desk ω) : Bool × Desk ω :=
  (List.range size).foldl (fun m i => exhaust s (.lookup owner i) 3 m) m

def surveySize (d : Desk ω) (id : Nat) : Nat :=
  (((d.flight? id).bind (·.stage.survey?)).map List.length).getD 0

def pollAlone (s : Setup ω) (m : Bool × Desk ω) (id : Nat) : Bool × Desk ω :=
  let m := pollSurvey s (.flight id) (surveySize m.2 id) m
  exhaust s (.advance id) (2 * s.registry.providers.length + 3) m

def pollFlight (s : Setup ω) (m : Bool × Desk ω) (id : Nat) : Bool × Desk ω :=
  let m := pollAlone s m id
  match ((m.2.flight? id).map (·.stage.legs)).getD [] with
  | [] => m
  | legs => attempt s (legs.foldl (pollAlone s) m) (.advance id)

def pollCaller (s : Setup ω) (m : Bool × Desk ω) (id : Nat) : Bool × Desk ω :=
  match m.2.caller? id with
  | some (.awaiting f) => attempt s (pollFlight s m f) (.collect id)
  | some (.surveying survey) => pollSurvey s (.caller id) survey.length m
  | _ => m

def stageWakes : Stage ω → List Instant
  | .surveying survey => Survey.wakes survey
  | .asking _ _ call _ => call.wakes
  | _ => []

def wakes (d : Desk ω) : List Instant :=
  (d.flights.filter fun f => d.isAwaited f.id).flatMap (stageWakes ·.stage) ++
    d.callers.flatMap fun
      | (_, .surveying survey) => Survey.wakes survey
      | _ => []

def schedule (s : Setup ω) : Schedule (Desk ω) where
  round d := (d.callers.map (·.1)).foldl (pollCaller s) (false, d)
  wakes := wakes
  now d := d.floor.clock.now
  tick t d := (attempt s (false, d) (.tick t)).2

def rounds (s : Setup ω) (d : Desk ω) (requests : Nat) : Nat :=
  64 * (requests + d.flights.length + 1) * (s.registry.providers.length + 2)

def run (s : Setup ω) (d : Desk ω) : Desk ω :=
  (schedule s).run (rounds s d d.callers.length) d

def answer? (d : Desk ω) (id : Nat) : Option PriceResult :=
  match d.caller? id with
  | some (.answered r) => some r
  | _ => none

def prices (s : Setup ω) (d : Desk ω) (keys : List RequestKey) :
    List (Option PriceResult) × Desk ω :=
  let first := d.nextCaller
  let d := (attempts s (false, d) (keys.map .request)).2
  let d := run s d
  ((List.range keys.length).map fun i => d.answer? (first + i), d.forget)

def price (s : Setup ω) (d : Desk ω) (key : RequestKey) : Option PriceResult × Desk ω :=
  let (results, d) := prices s d [key]
  (results.head?.join, d)

/-- Asks for prices one after another; tells how many there were and how many were not. -/
def pricesInTurn (s : Setup ω) (d : Desk ω) (keys : List RequestKey) : (Nat × Nat) × Desk ω :=
  keys.foldl
    (fun ((priced, failed), d) key =>
      match price s d key with
      | (some (.ok _), d) => ((priced + 1, failed), d)
      | (_, d) => ((priced, failed + 1), d))
    ((0, 0), d)

/-- Loads the listings of some providers and waits for them. A listing that never arrives counts
as failed. -/
def survey (s : Setup ω) (d : Desk ω) (ps : List (Provider ω)) :
    List (Except MarketError Listing) × Desk ω :=
  let id := d.nextCaller
  let d := run s (attempt s (false, d) (.survey ps)).2
  let listings :=
    match d.caller? id with
    | some (.surveying survey) =>
      survey.map fun (p, lookup) =>
        lookup.result?.getD (.error (.timeout p.id "get_asset_pairs" s.listingTimeout))
    | _ => []
  (listings, (attempt s (attempt s (false, d) (.drop id)) .forget).2)

def discover (s : Setup ω) (d : Desk ω) (pair : AssetPair) (network : Option Network) :
    (Option Match × Diagnostics) × Desk ω :=
  let (listings, d) := survey s d (Discovery.sources s.options s.registry pair network)
  (Discovery.conclude s.options s.registry pair network listings, d)

def takeFeed (d : Desk ω) : (Nat × List Completion) × Desk ω :=
  ((d.feed.lost, d.feed.received), { d with feed := {} })

def fresh (d : Desk ω) : Desk ω := { floor := d.floor }

end PriceDesk.Desk
