import PriceDesk.Proofs.Desk.Coherent

namespace PriceDesk

def Action.IsPublic {ω : Type} : Action ω → Prop
  | .request key => key.role = .whole
  | _ => True

structure Move (ω : Type) where
  before : Desk ω
  action : Action ω
  after : Desk ω

inductive Stage.Follows {ω : Type} : Stage ω → Stage ω → Prop
  | looks {survey survey' : Survey ω} : Follows (.surveying survey) (.surveying survey')
  | finds {survey : Survey ω} {leg : Leg} {queue : List (Provider ω)} {failure : MarketError} :
      Follows (.surveying survey) (.choosing leg queue failure)
  | splits {survey : Survey ω} {i j : Nat} : Follows (.surveying survey) (.combining i j)
  | skips {leg : Leg} {p : Provider ω} {queue : List (Provider ω)}
      {failure failure' : MarketError} :
      Follows (.choosing leg (p :: queue) failure) (.choosing leg queue failure')
  | asks {leg : Leg} {p : Provider ω} {queue : List (Provider ω)} {failure : MarketError}
      {call : Pending MarketError Quotes} :
      Follows (.choosing leg (p :: queue) failure) (.asking leg p call queue)
  | retries {leg : Leg} {p : Provider ω} {queue : List (Provider ω)} {failure : MarketError}
      {call : Pending MarketError Quotes} :
      Follows (.asking leg p call queue) (.choosing leg queue failure)
  | ends {stage : Stage ω} {r : PriceResult} (going : stage.result? = none) :
      Follows stage (.done r)

def Stage.ahead {ω : Type} : Stage ω → Nat
  | .surveying _ | .done _ => 0
  | .choosing _ queue _ => 2 * queue.length + 1
  | .asking _ _ _ queue => 2 * queue.length + 2
  | .combining _ _ => 1

theorem Stage.Follows.ahead_lt {ω : Type} {old new : Stage ω} (follows : Follows old new)
    (ended : old.survey? = none) : new.survey? = none ∧ new.ahead < old.ahead := by
  cases follows with
  | looks => cases ended
  | finds => cases ended
  | splits => cases ended
  | skips => exact ⟨rfl, by simp only [ahead, List.length_cons]; omega⟩
  | asks => exact ⟨rfl, by simp only [ahead, List.length_cons]; omega⟩
  | retries => exact ⟨rfl, by simp only [ahead]; omega⟩
  | ends going =>
    refine ⟨rfl, ?_⟩
    cases old with
    | surveying survey => cases ended
    | choosing leg queue failure => exact Nat.succ_pos _
    | asking leg p call queue => exact Nat.succ_pos _
    | combining i j => exact Nat.succ_pos _
    | done r => cases going

namespace Desk

variable {ω : Type} {s : Setup ω} {d e : Desk ω}

/-- Where a flight of the desk after a move comes from: it was there and is at the same stage or
the next one, or it is new. -/
inductive Origin (s : Setup ω) (d : Desk ω) (a : Action ω) (g : Flight ω) : Prop
  | kept (member : g ∈ d.flights)
  | moved {f : Flight ω} (member : f ∈ d.flights) (number : f.id = g.id) (key : f.key = g.key)
      (follows : Stage.Follows f.stage g.stage)
  | asked (number : d.nextFlight ≤ g.id) (request : a = .request g.key)
      (stage : g.stage = opening s g.key none)
  | leg {l : Leg} (number : d.nextFlight ≤ g.id) (part : g.key.isLeg = true)
      (stage : g.stage = opening s g.key (some l))

theorem Onward.follows {f : Flight ω} {stage : Stage ω} {world : ω}
    (onward : Onward s d f stage world) : Stage.Follows f.stage stage := by
  cases onward with
  | found now _ _ => rw [now]; exact .finds
  | skipped now _ => rw [now]; exact .skips
  | asked now _ _ => rw [now]; exact .asks
  | retried now _ _ _ => rw [now]; exact .retries

theorem mem_setStage_cases (h : Coherent d) {f g : Flight ω} {stage : Stage ω}
    (member : f ∈ d.flights) (there : g ∈ (d.setStage f.id stage).flights) :
    g ∈ d.flights ∨ g = { f with stage } := by
  rcases h.mem_setStage.mp there with ⟨was, _⟩ | ⟨old, was, same, rfl⟩
  · exact .inl was
  · cases h.eq_of_id was member same
    exact .inr rfl

theorem mem_joining_cases {key : RequestKey} {leg : Option Leg} {id : Nat} {g : Flight ω}
    (joins : Joining s d key leg id e) (there : g ∈ e.flights) :
    g ∈ d.flights ∨ g = { id := d.nextFlight, key, stage := opening s key leg } := by
  cases joins with
  | joined _ _ => exact .inl there
  | started _ =>
    rcases List.mem_cons.mp there with new | was
    · exact .inr new
    · exact .inl was

theorem nextFlight_joining {key : RequestKey} {leg : Option Leg} {id : Nat}
    (joins : Joining s d key leg id e) : d.nextFlight ≤ e.nextFlight := by
  cases joins with
  | joined _ _ => exact Nat.le_refl _
  | started _ => exact Nat.le_succ _

inductive Became (s : Setup ω) (d : Desk ω) (a : Action ω) (g : Flight ω) : Prop
  | kept (member : g ∈ d.flights)
  | asked (number : d.nextFlight ≤ g.id) (request : a = .request g.key)
      (stage : g.stage = opening s g.key none)
  | leg {f : Flight ω} {survey : Survey ω} {listings : List (Except MarketError Listing)}
      {first second : Leg} {diagnostics : Diagnostics} (number : d.nextFlight ≤ g.id)
      (flight : d.flight? f.id = some f) (now : f.stage = .surveying survey)
      (loaded : survey.results? = some listings)
      (found : Discovery.conclude s.options s.registry f.key.pair f.key.network listings =
        (some (.converted first second), diagnostics))
      (opens : g.key = firstKey f.key first ∧ g.stage = opening s g.key (some first) ∨
        g.key = secondKey second ∧ g.stage = opening s g.key (some second))
  | looked {f : Flight ω} {survey survey' : Survey ω} (flight : d.flight? f.id = some f)
      (now : f.stage = .surveying survey) (restaged : g = { f with stage := .surveying survey' })
  | ended {f : Flight ω} {r : PriceResult} (flight : d.flight? f.id = some f)
      (action : a = .advance f.id) (ending : Ending s d f r)
      (restaged : g = { f with stage := .done r })
  | wentOn {f : Flight ω} {stage : Stage ω} {world : ω} (flight : d.flight? f.id = some f)
      (action : a = .advance f.id) (onward : Onward s d f stage world)
      (restaged : g = { f with stage })
  | split {f : Flight ω} {survey : Survey ω} {listings : List (Except MarketError Listing)}
      {first second : Leg} {diagnostics : Diagnostics} {i j : Nat}
      (flight : d.flight? f.id = some f) (action : a = .advance f.id)
      (now : f.stage = .surveying survey) (loaded : survey.results? = some listings)
      (found : Discovery.conclude s.options s.registry f.key.pair f.key.network listings =
        (some (.converted first second), diagnostics))
      (restaged : g = { f with stage := .combining i j })

theorem became (h : Coherent d) {a : Action ω} (t : Transition s d a e) {g : Flight ω}
    (there : g ∈ e.flights) : Became s d a g := by
  cases t with
  | requested joins =>
    rcases mem_joining_cases joins there with was | rfl
    · exact .kept was
    · exact .asked (Nat.le_refl _) rfl rfl
  | @flightLooked f survey survey' floor index flight stage looks =>
    rcases mem_setStage_cases (h.onFloor floor) (mem_of_flight? flight) there with was | new
    · exact .kept was
    · exact .looked flight stage new
  | ended flight ending =>
    rcases mem_setStage_cases h (mem_of_flight? flight) there with was | new
    · exact .kept was
    · exact .ended flight rfl ending new
  | @wentOn f stage world flight onward =>
    rcases mem_setStage_cases (h.onFloor { d.floor with world }) (mem_of_flight? flight) there
      with was | new
    · exact .kept was
    · exact .wentOn flight rfl onward new
  | split flight stage loaded found one two =>
    have coherent := ((h.joining one).1.joining two).1
    rcases mem_setStage_cases coherent (two.mem (one.mem (mem_of_flight? flight))) there
      with was | new
    · rcases mem_joining_cases two was with was | rfl
      · rcases mem_joining_cases one was with was | rfl
        · exact .kept was
        · exact .leg (Nat.le_refl _) flight stage loaded found (.inl ⟨rfl, rfl⟩)
      · exact .leg (nextFlight_joining one) flight stage loaded found (.inr ⟨rfl, rfl⟩)
    · exact .split flight rfl stage loaded found new
  | forgot => exact .kept (Coherent.mem_flights_forget.mp there).1
  | surveyed | callerLooked _ _ | collected _ _ _ | left _ | surveyLeft _ | ticked _ =>
    exact .kept there

theorem origin (h : Coherent d) {a : Action ω} (t : Transition s d a e) {g : Flight ω}
    (there : g ∈ e.flights) : Origin s d a g := by
  cases became h t there with
  | kept was => exact .kept was
  | asked number request stage => exact .asked number request stage
  | leg number _ _ _ _ opens =>
    rcases opens with ⟨key, stage⟩ | ⟨key, stage⟩
    · exact .leg number (by rw [key]; rfl) stage
    · exact .leg number (by rw [key]; rfl) stage
  | looked flight now restaged =>
    subst restaged
    exact .moved (mem_of_flight? flight) rfl rfl (by rw [now]; exact .looks)
  | ended flight _ ending restaged =>
    subst restaged
    exact .moved (mem_of_flight? flight) rfl rfl (.ends ending.going)
  | wentOn flight _ onward restaged =>
    subst restaged
    exact .moved (mem_of_flight? flight) rfl rfl onward.follows
  | split flight _ now _ _ restaged =>
    subst restaged
    exact .moved (mem_of_flight? flight) rfl rfl (by rw [now]; exact .splits)

theorem nextFlight_le {a : Action ω} (t : Transition s d a e) : d.nextFlight ≤ e.nextFlight := by
  cases t with
  | requested joins =>
    have grown := nextFlight_joining joins
    exact grown
  | split flight stage loaded found one two =>
    have grown := Nat.le_trans (nextFlight_joining one) (nextFlight_joining two)
    exact grown
  | surveyed | flightLooked _ _ _ | callerLooked _ _ | ended _ _ | wentOn _ _ | collected _ _ _
  | left _ | surveyLeft _ | ticked _ | forgot => exact Nat.le_refl _

/-- The runs of the desk: the moves that were made, and the desk after them. -/
inductive Run (s : Setup ω) : List (Move ω) → Desk ω → Prop
  | start (floor : Floor ω) : Run s [] { floor }
  | move {moves : List (Move ω)} {d e : Desk ω} {a : Action ω} (run : Run s moves d)
      (whole : a.IsPublic) (step : step s d a = some e) : Run s (moves ++ [⟨d, a, e⟩]) e

theorem Run.coherent {moves : List (Move ω)} (run : Run s moves d) : Coherent d := by
  induction run with
  | start floor => exact .empty floor
  | move run _ step ih => exact ih.move (transition_of_step step)

theorem Run.move_of_mem {moves : List (Move ω)} (run : Run s moves d) {m : Move ω}
    (member : m ∈ moves) :
    Coherent m.before ∧ m.action.IsPublic ∧ Transition s m.before m.action m.after := by
  induction run with
  | start floor => cases member
  | move run whole step ih =>
    rcases List.mem_append.mp member with member | last
    · exact ih member
    · cases List.mem_singleton.mp last
      exact ⟨run.coherent, whole, transition_of_step step⟩

theorem Run.cut {earlier later : List (Move ω)} {m : Move ω}
    (run : Run s (earlier ++ m :: later) d) :
    Run s earlier m.before ∧ Run s (earlier ++ [m]) m.after := by
  generalize all : earlier ++ m :: later = moves at run
  induction run generalizing later with
  | start floor => simp at all
  | @move moves d e a run whole step ih =>
    rcases List.eq_nil_or_concat later with rfl | ⟨between, last, rfl⟩
    · obtain ⟨rfl, same⟩ := List.append_inj' all rfl
      cases same
      exact ⟨run, run.move whole step⟩
    · have front : (earlier ++ m :: between) ++ [last] = moves ++ [⟨d, a, e⟩] := by
        simpa using all
      exact ih (List.append_inj' front rfl).1

theorem Run.before {moves : List (Move ω)} (run : Run s moves d) {m : Move ω}
    (member : m ∈ moves) : ∃ earlier, Run s earlier m.before ∧ ∀ n ∈ earlier, n ∈ moves := by
  obtain ⟨earlier, later, rfl⟩ := List.append_of_mem member
  exact ⟨earlier, run.cut.1, fun n => List.mem_append_left _⟩

def promptProvider (pairs : List AssetPair) : Provider Unit where
  id := "prompt"
  network := ⟨"Prompt"⟩
  title := "Prompt"
  listing := some fun _ _ world => (.now (.ok (.ofList pairs)), world)
  pricing := some
    { features := {}
      call := fun _ _ _ world =>
        (.now (.ok
          { quotes := pairs.map fun pair => { network := ⟨"Prompt"⟩, pair, price := .one } }),
          world) }

def promptSetup (pairs : List AssetPair) : Setup Unit where
  registry := ⟨[promptProvider pairs], List.pairwise_singleton _ _, List.pairwise_singleton _ _⟩
  listingTimeout := 1
  quoteTimeout := 1

def promptFloor : Floor Unit := { world := (), listings := { ttl := 1 } }

end Desk

end PriceDesk
