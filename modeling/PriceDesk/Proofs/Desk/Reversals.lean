import PriceDesk.Proofs.Desk.PriceMeaning

namespace PriceDesk

namespace Discovery

variable {ω : Type} {options : DiscoveryOptions} {registry : Registry ω} {pair : AssetPair}
  {network : Option Network} {Admits : Provider ω → Listing → Prop}

theorem Offer.unlisted_of_preferred {o : Offer ω} (reversed : o.isReversed = true)
    (preferred : ∀ o' : Offer ω, o'.pair = o.pair → o'.Open Admits → o.NoWorse o')
    {p : Provider ω} {l : Listing} (admits : Admits p l) : o.pair ∉ l.pairs := by
  intro lists
  rcases preferred ⟨p, o.pair, false⟩ rfl ⟨l, admits, lists⟩ with ⟨forwards, _⟩ | ⟨same, _⟩
  · exact Bool.noConfusion (forwards.symm.trans reversed)
  · exact Bool.noConfusion (same.symm.trans reversed)

theorem Route.Best.preferred {n : Nat} {a b : Offer ω}
    (best : (Route.converted n a b).Best Admits options pair) :
    (∀ a' : Offer ω, a'.pair = a.pair → a'.Open Admits → a.NoWorse a') ∧
      ∀ b' : Offer ω, b'.pair = b.pair → b'.Open Admits → b.NoWorse b' := by
  obtain ⟨⟨enabled, i, there, meet⟩, noWorse⟩ := best
  constructor
  · intro a' same isOpen
    have route : (Route.converted n a' b).Open Admits options pair :=
      ⟨enabled, i, there,
        { meet with firstPair := same.trans meet.firstPair, firstOpen := isOpen }⟩
    rcases noWorse _ route with later | ⟨_, first, _⟩
    · exact absurd later (Nat.lt_irrefl n)
    · exact first
  · intro b' same isOpen
    have route : (Route.converted n a b').Open Admits options pair :=
      ⟨enabled, i, there,
        { meet with secondPair := same.trans meet.secondPair, secondOpen := isOpen }⟩
    rcases noWorse _ route with later | ⟨_, _, second⟩
    · exact absurd later (Nat.lt_irrefl n)
    · exact second

theorem reversed_of_conclude (off : options.reversalEnabled = false)
    {listings : List (Except MarketError Listing)} {m : Match} {diagnostics : Diagnostics}
    (gives : conclude options registry pair network listings = (some m, diagnostics)) {leg : Leg}
    (member : leg ∈ m.legs) (reversed : leg.isReversed = true) :
    m.isConverted = true ∧ options.conversionEnabled = true ∧
      ∀ q ∈ heard (sources options registry pair network) listings, leg.pair ∉ q.2.pairs := by
  cases proper : pair.isDegenerate with
  | true =>
    rw [conclude, if_pos proper] at gives
    cases gives
  | false =>
    have finds := finds_conclude options registry network listings proper
    rw [gives] at finds
    obtain ⟨r, isOpen, noWorse, rfl⟩ := finds
    cases r with
    | plain o =>
      cases List.mem_singleton.mp member
      exact Bool.noConfusion (off.symm.trans (isOpen.2.1 reversed))
    | converted n a b =>
      obtain ⟨firsts, seconds⟩ := Route.Best.preferred ⟨isOpen, noWorse⟩
      refine ⟨rfl, isOpen.1, fun q heard => ?_⟩
      rcases List.mem_cons.mp member with rfl | member
      · exact Offer.unlisted_of_preferred reversed firsts heard
      · cases List.mem_singleton.mp member
        exact Offer.unlisted_of_preferred reversed seconds heard

end Discovery

variable {ω : Type}

def Stage.leg? : Stage ω → Option Leg
  | .choosing leg _ _ | .asking leg _ _ _ => some leg
  | _ => none

namespace Desk

variable {s : Setup ω} {d e : Desk ω} {moves : List (Move ω)}

theorem Onward.leg {f : Flight ω} {stage : Stage ω} {world : ω} (onward : Onward s d f stage world)
    {leg : Leg} (prices : stage.leg? = some leg) :
    f.stage.leg? = some leg ∨ ∃ listings diagnostics,
      Discovery.conclude s.options s.registry f.key.pair f.key.network listings =
        (some (.plain leg), diagnostics) := by
  cases onward with
  | found now loaded found =>
    cases prices
    exact .inr ⟨_, _, found⟩
  | skipped now mute =>
    cases prices
    exact .inl (by rw [now]; rfl)
  | asked now quotes called =>
    cases prices
    exact .inl (by rw [now]; rfl)
  | retried now answer failed mendable =>
    cases prices
    exact .inl (by rw [now]; rfl)

theorem Run.straight (off : s.options.reversalEnabled = false) (run : Run s moves d) {g : Flight ω}
    (there : g ∈ d.flights) (whole : g.key.role = .whole) {leg : Leg}
    (prices : g.stage.leg? = some leg) : leg.isReversed = false := by
  induction run generalizing g leg with
  | start floor => cases there
  | @move moves d e a run isPublic step ih =>
    have h := run.coherent
    have kept : g ∈ d.flights → leg.isReversed = false := fun was => ih was whole prices
    cases transition_of_step step with
    | requested joins =>
      rcases mem_joining_cases joins there with was | rfl
      · exact kept was
      · cases prices
    | @flightLooked f survey survey' floor index flight stage looks =>
      rcases mem_setStage_cases (h.onFloor floor) (mem_of_flight? flight) there with was | rfl
      · exact kept was
      · cases prices
    | ended flight ending =>
      rcases mem_setStage_cases h (mem_of_flight? flight) there with was | rfl
      · exact kept was
      · cases prices
    | @wentOn f stage world flight onward =>
      have member := mem_of_flight? flight
      rcases mem_setStage_cases (h.onFloor { d.floor with world }) member there with was | rfl
      · exact kept was
      rcases onward.leg prices with old | ⟨listings, diagnostics, found⟩
      · exact ih member whole old
      · cases reversed : leg.isReversed with
        | false => rfl
        | true =>
          have converted :=
            (Discovery.reversed_of_conclude off found List.mem_cons_self reversed).1
          cases converted
    | split flight stage loaded found one two =>
      have coherent := ((h.joining one).1.joining two).1
      rcases mem_setStage_cases coherent (two.mem (one.mem (mem_of_flight? flight))) there
        with was | rfl
      · rcases mem_joining_cases two was with was | rfl
        · rcases mem_joining_cases one was with was | rfl
          · exact kept was
          · cases whole
        · cases whole
      · cases prices
    | forgot => exact kept (Coherent.mem_flights_forget.mp there).1
    | surveyed | callerLooked _ _ | collected _ _ _ | left _ | surveyLeft _ | ticked _ =>
      exact kept there

/-- Without reversed listings, only legs of conversions are reversed: those that nobody lists as
they stand. -/
theorem reversal_is_left_to_legs (off : s.options.reversalEnabled = false) :
    (∀ pair network listings m diagnostics,
      Discovery.conclude s.options s.registry pair network listings = (some m, diagnostics) →
        ∀ leg ∈ m.legs, leg.isReversed = true →
          m.isConverted = true ∧ s.options.conversionEnabled = true ∧
            ∀ q ∈ Discovery.heard (Discovery.sources s.options s.registry pair network) listings,
              leg.pair ∉ q.2.pairs) ∧
      ∀ moves d, Run s moves d → ∀ f ∈ d.flights, f.key.role = .whole →
        (∀ leg, f.stage.leg? = some leg → leg.isReversed = false) ∧
          ∀ a e lp, step s d a = some e → Move.Completes ⟨d, a, e⟩ f (.ok lp) → lp.via = none →
            lp.isReversed = false ∧ ∃ quotes q,
              Answered s moves d.floor.clock.now lp.network quotes ∧
                quotes.get? f.key.pair = some q ∧ lp.price = q.price := by
  refine ⟨fun pair network listings m diagnostics gives leg member reversed =>
    Discovery.reversed_of_conclude off gives member reversed, ?_⟩
  intro moves d run f member whole
  refine ⟨fun leg prices => run.straight off member whole prices, ?_⟩
  intro a e lp step completes plain
  have ending := (completed_move run.coherent (transition_of_step step) completes).2.1
  have means := run.means_of_ending run.sound member ending rfl
  have straight : lp.isReversed = false := by
    generalize result : Except.ok lp = r at ending
    cases ending with
    | unfound _ _ _ | exhausted _ | refused _ _ _ _ => cases result
    | priced now answer priced =>
      cases result
      rw [(priceOf_eq_ok priced).2.2.1]
      exact run.straight off member whole (by rw [now]; rfl)
    | @combined i j g h first second now one oneDone two twoDone =>
      cases first with
      | error failure => cases result
      | ok first =>
        cases second with
        | error failure => cases result
        | ok second =>
          have converted := (combine_eq_ok result.symm).2.2.2.2
          rw [plain] at converted
          cases converted
  obtain ⟨quotes, q, answered, ⟨_, got, value⟩ | ⟨reversed, _⟩⟩ := means.quoted plain
  · exact ⟨straight, quotes, q, answered, got, value⟩
  · exact Bool.noConfusion (straight.symm.trans reversed)

def straightSetup : Setup Unit :=
  { promptSetup [.of "BTC" "USD", .of "EUR" "USD"] with options := { reversalEnabled := false } }

def straightListings : List (Except MarketError Listing) :=
  [.ok (.ofList [.of "BTC" "USD", .of "EUR" "USD"])]

def dollarsToEuros : Leg :=
  { provider := "prompt", network := ⟨"Prompt"⟩, pair := .of "USD" "EUR", isReversed := true }

/-- From bitcoin to euros, the second leg is reversed all the same. -/
theorem disabled_reversal_reverses_a_leg :
    straightSetup.options.reversalEnabled = false ∧ ∃ first,
      (Discovery.conclude straightSetup.options straightSetup.registry (.of "BTC" "EUR") none
        straightListings).1 = some (.converted first dollarsToEuros) ∧
      dollarsToEuros.isReversed = true :=
  ⟨rfl, _, rfl, rfl⟩

/-- Nobody lists that leg as it stands. -/
theorem reversal_is_left_to_dollars_to_euros :
    straightSetup.options.reversalEnabled = false ∧
      ∀ q ∈ Discovery.heard (Discovery.sources straightSetup.options straightSetup.registry
        (.of "BTC" "EUR") none) straightListings, dollarsToEuros.pair ∉ q.2.pairs := by
  have legs := (reversal_is_left_to_legs (s := straightSetup) rfl).1
  exact ⟨rfl, (legs (.of "BTC" "EUR") none straightListings (.converted _ dollarsToEuros) _ rfl
    dollarsToEuros (.tail _ (.head _)) rfl).2.2⟩

end Desk

end PriceDesk
