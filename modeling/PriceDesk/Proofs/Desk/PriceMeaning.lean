import PriceDesk.Proofs.Desk.History
import PriceDesk.Proofs.Discovery.BestMatch

namespace PriceDesk

variable {ω : Type}

namespace RequestKey

def legTo (key : RequestKey) (via : Asset) : RequestKey :=
  { pair := ⟨key.pair.asset1, via⟩, role := .firstLeg, network := key.network }

def legFrom (key : RequestKey) (via : Asset) (network : Network) : RequestKey :=
  { pair := ⟨via, key.pair.asset2⟩, role := .secondLeg, network := some network }

def Suits (key : RequestKey) (network : Network) : Prop :=
  ∀ n, key.network = some n → (network == n) = true

theorem Suits.of_beq {k l : RequestKey} {network : Network} (suits : k.Suits network)
    (same : (k == l) = true) : l.Suits network := by
  intro n asked
  have networks := (beq_iff.mp same).2.2
  rw [asked] at networks
  obtain ⟨m, asked', key⟩ := Option.map_eq_some_iff.mp networks
  exact BEq.trans (suits m asked') (Network.beq_iff.mpr key)

end RequestKey

/-- Whether one of these moves asked the provider for prices, so that this answer is to come. -/
def Called (s : Setup ω) (moves : List (Move ω)) (p : Provider ω)
    (call : Pending MarketError Quotes) : Prop :=
  ∃ m ∈ moves, ∃ pricing requested, p.pricing = some pricing ∧
    (pricing.call requested).invoke p.id "get_pricing" s.quoteTimeout m.before.floor.clock.now
      m.before.floor.world = (call, m.after.floor.world)

/-- Whether a pricing provider of the network was asked for prices and has answered with these. -/
def Answered (s : Setup ω) (moves : List (Move ω)) (now : Instant) (network : Network)
    (quotes : Quotes) : Prop :=
  ∃ p ∈ s.registry.onNetwork network .pricing, ∃ call, Called s moves p call ∧
    call.poll now = some (.ok quotes)

def Priced (moves : List (Move ω)) (key : RequestKey) (lp : LatestPrice) : Prop :=
  ∃ m ∈ moves, ∃ f, (f.key == key) = true ∧ m.Completes f (.ok lp)

/-- What it means that a request ended with a price, after these moves. -/
structure Means (s : Setup ω) (moves : List (Move ω)) (now : Instant) (key : RequestKey)
    (lp : LatestPrice) : Prop where
  pair : lp.pair = key.pair
  network : key.Suits lp.network
  quoted : lp.via = none → ∃ quotes q, Answered s moves now lp.network quotes ∧
    (lp.isReversed = false ∧ quotes.get? key.pair = some q ∧ lp.price = q.price ∨
      lp.isReversed = true ∧ quotes.get? key.pair.reversed = some q ∧
        q.price.reciprocal? = some lp.price)
  converted : ∀ via, lp.via = some via →
    via.asset ∈ s.options.intermediaries ∧ via.asset ≠ key.pair.asset1 ∧
      via.asset ≠ key.pair.asset2 ∧ key.Suits via.network ∧
      ∃ first second, Priced moves (key.legTo via.asset) first ∧
        Priced moves (key.legFrom via.asset via.network) second ∧
        first.price.mul? second.price = some lp.price ∧ lp.network = first.network ∧
        lp.isReversed = first.isReversed ∧ via.network = second.network

def Desk.Keyed (d : Desk ω) (id : Nat) (key : RequestKey) : Prop :=
  Settled d id fun f => (f.key == key) = true

def Stage.Sound (s : Setup ω) (moves : List (Move ω)) (d : Desk ω) (key : RequestKey) :
    Stage ω → Prop
  | .surveying _ => True
  | .choosing leg queue _ => leg.pair = key.pair ∧ key.Suits leg.network ∧
      ∀ p ∈ queue, p ∈ s.registry.onNetwork leg.network .pricing
  | .asking leg p call queue => leg.pair = key.pair ∧ key.Suits leg.network ∧
      (∀ q ∈ p :: queue, q ∈ s.registry.onNetwork leg.network .pricing) ∧ Called s moves p call
  | .combining i j => ∃ via ∈ s.options.intermediaries, via ≠ key.pair.asset1 ∧
      via ≠ key.pair.asset2 ∧ ∃ network, key.Suits network ∧
        Desk.Keyed d i (key.legTo via) ∧ Desk.Keyed d j (key.legFrom via network)
  | .done result => ∀ lp, result = .ok lp → lp.pair = key.pair ∧ key.Suits lp.network

namespace Desk

variable {s : Setup ω} {d e : Desk ω} {moves : List (Move ω)}

theorem sound_mono (h : Coherent d) {a : Action ω} (t : Transition s d a e) {m : Move ω}
    {key : RequestKey} {stage : Stage ω} (sound : stage.Sound s moves d key) :
    stage.Sound s (moves ++ [m]) e key := by
  cases stage with
  | surveying survey => exact trivial
  | choosing leg queue failure => exact sound
  | asking leg p call queue =>
    obtain ⟨pair, suits, queued, n, member, called⟩ := sound
    exact ⟨pair, suits, queued, n, List.mem_append_left _ member, called⟩
  | combining i j =>
    obtain ⟨via, configured, notBase, notQuote, network, suits, one, two⟩ := sound
    exact ⟨via, configured, notBase, notQuote, network, suits,
      one.move h t fun f g key _ same => key ▸ same,
      two.move h t fun f g key _ same => key ▸ same⟩
  | done result => exact sound

theorem sound_opening {key : RequestKey} {leg : Leg} (pair : leg.pair = key.pair)
    (suits : key.Suits leg.network) : (opening s key (some leg)).Sound s moves d key := by
  exact ⟨pair, suits, fun _ => onNetwork_of_askOrder⟩

theorem priceOf_eq_ok {leg : Leg} {provider : String} {quotes : Quotes} {lp : LatestPrice}
    (priced : priceOf leg provider quotes = .ok lp) :
    lp.pair = leg.pair ∧ lp.network = leg.network ∧ lp.isReversed = leg.isReversed ∧
      lp.via = none ∧ ∃ q, quotes.get? leg.providerPair = some q ∧
        if leg.isReversed then q.price.reciprocal? = some lp.price else lp.price = q.price := by
  unfold priceOf at priced
  split at priced
  · cases priced
  · rename_i q got
    cases direction : leg.isReversed with
    | false =>
      rw [direction] at priced
      cases priced
      exact ⟨rfl, rfl, rfl, rfl, q, got, by simp⟩
    | true =>
      rw [direction] at priced
      simp only [if_true, Quote.reversed] at priced
      cases inverse : q.price.reciprocal? with
      | none =>
        rw [inverse] at priced
        cases priced
      | some price =>
        rw [inverse] at priced
        cases priced
        exact ⟨rfl, rfl, rfl, rfl, q, got, by simp [inverse]⟩

theorem combine_eq_ok {pair : AssetPair} {first second lp : LatestPrice}
    (combined : combine pair first second = .ok lp) :
    first.price.mul? second.price = some lp.price ∧ lp.pair = pair ∧
      lp.network = first.network ∧ lp.isReversed = first.isReversed ∧
      lp.via = some ⟨first.pair.asset2, second.network⟩ := by
  unfold combine at combined
  split at combined
  · rename_i price product
    cases combined
    exact ⟨product, rfl, rfl, rfl, rfl⟩
  · cases combined

theorem Run.priced_of_done (run : Run s moves d)
    (sound : ∀ f ∈ d.flights, f.stage.Sound s moves d f.key) {id : Nat} {g : Flight ω}
    {key : RequestKey} {lp : LatestPrice}
    (keyed : Keyed d id key) (found : d.flight? id = some g)
    (done : g.stage = .done (.ok lp)) :
    Priced moves key lp ∧ lp.pair = key.pair ∧ key.Suits lp.network := by
  have member := mem_of_flight? found
  have same := keyed.2 g member (id_of_flight? found)
  obtain ⟨m, there, f, _, asked, completes⟩ := run.completed_of_done member done
  have fits := sound g member
  rw [done] at fits
  obtain ⟨pair, suits⟩ := fits lp rfl
  exact ⟨⟨m, there, f, asked ▸ same, completes⟩, pair.trans (RequestKey.beq_iff.mp same).1,
    suits.of_beq same⟩

theorem Run.means_of_ending (run : Run s moves d)
    (sound : ∀ f ∈ d.flights, f.stage.Sound s moves d f.key) {f : Flight ω} {r : PriceResult}
    {lp : LatestPrice} (member : f ∈ d.flights) (ending : Ending s d f r) (ok : r = .ok lp) :
    Means s moves d.floor.clock.now f.key lp := by
  have fits := sound f member
  cases ending with
  | unfound _ _ _ => cases ok
  | exhausted _ => cases ok
  | refused _ _ _ _ => cases ok
  | @priced leg p call queue quotes price stage answer priced =>
    cases ok
    rw [stage] at fits
    obtain ⟨pair, suits, queued, called⟩ := fits
    obtain ⟨samePair, sameNetwork, direction, plain, q, got, value⟩ := priceOf_eq_ok priced
    refine ⟨samePair.trans pair, sameNetwork ▸ suits, fun _ => ⟨quotes, q, ?_, ?_⟩, ?_⟩
    · rw [sameNetwork]
      exact ⟨p, queued p List.mem_cons_self, call, called, answer⟩
    · rw [Leg.providerPair, pair] at got
      rw [direction]
      cases reversed : leg.isReversed with
      | false =>
        rw [reversed] at got value
        exact .inl ⟨rfl, got, value⟩
      | true =>
        rw [reversed] at got value
        exact .inr ⟨rfl, got, value⟩
    · intro via some
      rw [plain] at some
      cases some
  | @combined i j g h first second stage one oneDone two twoDone =>
    rw [stage] at fits
    obtain ⟨via, configured, notBase, notQuote, network, suits, isFirst, isSecond⟩ := fits
    cases first with
    | error failure => cases ok
    | ok first =>
      cases second with
      | error failure => cases ok
      | ok second =>
        obtain ⟨product, samePair, sameNetwork, direction, through⟩ := combine_eq_ok ok
        obtain ⟨firstPriced, firstPair, firstSuits⟩ := run.priced_of_done sound isFirst one oneDone
        obtain ⟨secondPriced, _, secondSuits⟩ := run.priced_of_done sound isSecond two twoDone
        have onNetwork : (second.network == network) = true := secondSuits network rfl
        have viaAsset : first.pair.asset2 = via := congrArg AssetPair.asset2 firstPair
        refine ⟨samePair, sameNetwork ▸ firstSuits, ?_, ?_⟩
        · intro plain
          rw [through] at plain
          cases plain
        · intro via' some
          rw [through, viaAsset] at some
          cases some
          refine ⟨configured, notBase, notQuote, fun n asked => ?_, first, second, firstPriced, ?_,
            product, sameNetwork, direction, rfl⟩
          · exact BEq.trans onNetwork (suits n asked)
          -- The second leg was asked for on the network of its listing, as it was written there.
          · obtain ⟨m, there, f', same, completes⟩ := secondPriced
            refine ⟨m, there, f', BEq.trans same (RequestKey.beq_iff.mpr ⟨rfl, rfl, ?_⟩), completes⟩
            exact congrArg some (Network.beq_iff.mp onNetwork).symm

theorem Joining.keyed {key : RequestKey} {leg : Option Leg} {id : Nat} (h : Coherent d)
    (joins : Joining s d key leg id e) : Keyed e id key :=
  joins.settled h (fun _ _ _ same => same) BEq.rfl

theorem keyed_split (h : Coherent d) {key key' : RequestKey} {leg leg' : Option Leg} {i j : Nat}
    {d' : Desk ω} (one : Joining s d key leg i d') (two : Joining s d' key' leg' j e)
    (number : Nat) (stage : Stage ω) :
    Keyed (e.setStage number stage) i key ∧ Keyed (e.setStage number stage) j key' := by
  have coherent := (h.joining one).1
  have coherent' := (coherent.joining two).1
  exact ⟨((one.keyed h).joining two).setStage coherent' fun _ _ _ same => same,
    (two.keyed coherent).setStage coherent' fun _ _ _ same => same⟩

/-- A flight whose search found a conversion is sound when it waits for its legs, and so are the
flights of the legs if they are new. -/
theorem sound_split (moves : List (Move ω)) (number : Nat) (h : Coherent d) {key : RequestKey}
    {first second : Leg} {i j : Nat} {listings : List (Except MarketError Listing)}
    {diagnostics : Diagnostics} {d' : Desk ω}
    (found : Discovery.conclude s.options s.registry key.pair key.network listings =
      (some (.converted first second), diagnostics))
    (one : Joining s d (firstKey key first) (some first) i d')
    (two : Joining s d' (secondKey second) (some second) j e) :
    let after := e.setStage number (.combining i j)
    (Stage.combining i j).Sound s moves after key ∧
      (opening s (firstKey key first) (some first)).Sound s moves after (firstKey key first) ∧
      (opening s (secondKey second) (some second)).Sound s moves after (secondKey second) := by
  obtain ⟨rests, suits⟩ := Discovery.conclude_rests found
  obtain ⟨via, configured, notBase, notQuote, firstPair, secondPair⟩ := rests.meets _ _ rfl
  have suitsFirst : key.Suits first.network := suits first List.mem_cons_self
  have suitsSecond : key.Suits second.network := suits second (List.mem_cons_of_mem _
    List.mem_cons_self)
  obtain ⟨isFirst, isSecond⟩ := keyed_split h one two number (.combining i j)
  rw [firstKey, firstPair] at isFirst
  rw [secondKey, secondPair] at isSecond
  refine ⟨⟨via, configured, notBase, notQuote, second.network, suitsSecond, isFirst, isSecond⟩,
    sound_opening rfl suitsFirst, sound_opening rfl ?_⟩
  intro _ given
  cases given
  exact BEq.rfl

theorem Run.sound (run : Run s moves d) : ∀ f ∈ d.flights, f.stage.Sound s moves d f.key := by
  induction run with
  | start floor => simp
  | @move moves d e a run whole step sound =>
    have h := run.coherent
    have t := transition_of_step step
    have kept : ∀ g ∈ d.flights, g.stage.Sound s (moves ++ [⟨d, a, e⟩]) e g.key :=
      fun g was => sound_mono h t (sound g was)
    intro g there
    cases t with
    | @requested key id e joins =>
      rcases mem_joining_cases joins there with was | rfl
      · exact kept g was
      · exact trivial
    | @flightLooked f survey survey' floor index flight stage looks =>
      rcases mem_setStage_cases (h.onFloor floor) (mem_of_flight? flight) there with was | rfl
      · exact kept g was
      · exact trivial
    | @ended f r flight ending =>
      have member := mem_of_flight? flight
      rcases mem_setStage_cases h member there with was | rfl
      · exact kept g was
      · intro lp ok
        have means := run.means_of_ending sound member ending ok
        exact ⟨means.pair, means.network⟩
    | @wentOn f stage world flight onward =>
      have member := mem_of_flight? flight
      have fits := sound f member
      rcases mem_setStage_cases (h.onFloor { d.floor with world }) member there with was | rfl
      · exact kept g was
      cases onward with
      | @found survey listings leg diagnostics now loaded found =>
        obtain ⟨rests, suits⟩ := Discovery.conclude_rests found
        exact sound_opening rests.requested (suits leg List.mem_cons_self)
      | skipped now mute =>
        rw [now] at fits
        obtain ⟨pair, suits, queued⟩ := fits
        exact ⟨pair, suits, fun p member => queued p (List.mem_cons_of_mem _ member)⟩
      | @asked leg p queue failure pricing call world now quotes called =>
        rw [now] at fits
        obtain ⟨pair, suits, queued⟩ := fits
        -- This very move is the one that asked.
        exact ⟨pair, suits, queued, _, List.mem_append_right _ List.mem_cons_self, pricing, _,
          quotes, called⟩
      | retried now answer failed mendable =>
        rw [now] at fits
        obtain ⟨pair, suits, queued, _⟩ := fits
        exact ⟨pair, suits, fun p member => queued p (List.mem_cons_of_mem _ member)⟩
    | @split f survey listings first second diagnostics i j d₁ d₂ flight stage loaded found one
        two =>
      obtain ⟨combining, firstSound, secondSound⟩ :=
        sound_split (moves ++ [⟨d, .advance f.id, d₂.setStage f.id (.combining i j)⟩]) f.id h found
          one two
      have coherent := ((h.joining one).1.joining two).1
      rcases mem_setStage_cases coherent (two.mem (one.mem (mem_of_flight? flight))) there
        with was | rfl
      · rcases mem_joining_cases two was with was | rfl
        · rcases mem_joining_cases one was with was | rfl
          · exact kept g was
          · exact firstSound
        · exact secondSound
      · exact combining
    | forgot => exact kept g (Coherent.mem_flights_forget.mp there).1
    | surveyed | callerLooked _ _ | collected _ _ _ | left _ | surveyLeft _ | ticked _ =>
      exact kept g there

/-- Whenever a request ends with a price, the price means what it says: in every run, however the
requests share their legs. -/
theorem completed_price_means (run : Run s moves d) {a : Action ω} (step : step s d a = some e)
    {f : Flight ω} {lp : LatestPrice} (completes : Move.Completes ⟨d, a, e⟩ f (.ok lp)) :
    Means s moves d.floor.clock.now f.key lp := by
  have ending := (completed_move run.coherent (transition_of_step step) completes).2.1
  exact run.means_of_ending run.sound completes.1 ending rfl

/-- A price of bitcoin in euros through dollars, with a reversed second leg. -/
theorem prompt_conversion_means : ∃ moves d e f lp,
    Run (promptSetup [.of "BTC" "USD", .of "EUR" "USD"]) moves d ∧
      step (promptSetup [.of "BTC" "USD", .of "EUR" "USD"]) d (.advance 0) = some e ∧
      Move.Completes ⟨d, .advance 0, e⟩ f (.ok lp) ∧ lp.isConverted = true ∧
      Means (promptSetup [.of "BTC" "USD", .of "EUR" "USD"]) moves d.floor.clock.now f.key lp := by
  have run := Run.start (s := promptSetup [.of "BTC" "USD", .of "EUR" "USD"]) promptFloor
    |>.move (a := .request { pair := .of "BTC" "EUR" }) rfl rfl
    |>.move (a := .lookup (.flight 0) 0) trivial rfl
    |>.move (a := .lookup (.flight 0) 0) trivial rfl
    |>.move (a := .lookup (.flight 0) 0) trivial rfl
    |>.move (a := .advance 0) trivial rfl
    |>.move (a := .advance 1) trivial rfl
    |>.move (a := .advance 1) trivial rfl
    |>.move (a := .advance 2) trivial rfl
    |>.move (a := .advance 2) trivial rfl
  let lp : LatestPrice :=
    { pair := .of "BTC" "EUR", price := .one, network := ⟨"Prompt"⟩, isReversed := false,
      via := some ⟨.of "USD", ⟨"Prompt"⟩⟩ }
  refine ⟨_, _, _, ⟨0, { pair := .of "BTC" "EUR" }, .combining 1 2⟩, lp, run, by rfl, ?completes,
    by rfl, completed_price_means run (by rfl) ?completes⟩
  exact ⟨.tail _ (.tail _ (.head _)), by rfl, ⟨0, { pair := .of "BTC" "EUR" }, .done (.ok lp)⟩,
    .tail _ (.tail _ (.head _)), by rfl, by rfl⟩

end Desk

end PriceDesk
