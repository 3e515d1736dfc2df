import PriceDesk.Proofs.Decimal.Vanishing
import PriceDesk.Proofs.Desk.Accounts
import PriceDesk.Proofs.Desk.Sharing

namespace PriceDesk

variable {ω : Type}

def Decimal.IsPositive (d : Decimal) : Prop := d.negative = false ∧ d.mantissa ≠ 0

def Registry.QuotesPositive (registry : Registry ω) : Prop :=
  ∀ p ∈ registry.providers, ∀ pricing, p.pricing = some pricing →
    ∀ requested patience now world quotes,
      (pricing.call requested patience now world).1.outcome = .ok quotes →
        ∀ q ∈ quotes.quotes, q.price.IsPositive

/-- How a price comes about from positive quotes, and where it vanishes. -/
inductive Made (s : Setup ω) (moves : List (Move ω)) : LatestPrice → Prop
  | quoted {lp : LatestPrice} {now : Instant} {quotes : Quotes} {q : Quote}
      (answered : Answered s moves now lp.network quotes) (quote : quotes.get? lp.pair = some q)
      (positive : q.price.IsPositive) (price : lp.price = q.price) : Made s moves lp
  | reversed {lp : LatestPrice} {now : Instant} {quotes : Quotes} {q : Quote}
      (answered : Answered s moves now lp.network quotes)
      (quote : quotes.get? lp.pair.reversed = some q) (positive : q.price.IsPositive)
      (price : q.price.reciprocal? = some lp.price)
      (zero_iff : lp.price.mantissa = 0 ↔ 2 * tenTo (28 + q.price.scale) ≤ q.price.mantissa) :
      Made s moves lp
  | converted {lp first second : LatestPrice} (one : Made s moves first)
      (two : Made s moves second) (firstPair : first.pair.asset1 = lp.pair.asset1)
      (meet : first.pair.asset2 = second.pair.asset1)
      (secondPair : second.pair.asset2 = lp.pair.asset2)
      (price : first.price.mul? second.price = some lp.price)
      (zero_iff : lp.price.mantissa = 0 ↔ 2 * (first.price.mantissa * second.price.mantissa) ≤
        tenTo (first.price.scale + second.price.scale - 28)) : Made s moves lp

namespace Made

variable {s : Setup ω} {moves : List (Move ω)} {lp : LatestPrice}

theorem mono (made : Made s moves lp) (m : Move ω) : Made s (moves ++ [m]) lp := by
  have later : ∀ {now network quotes}, Answered s moves now network quotes →
      Answered s (moves ++ [m]) now network quotes := by
    intro now network quotes answered
    obtain ⟨p, member, call, ⟨n, sooner, called⟩, answer⟩ := answered
    exact ⟨p, member, call, ⟨n, List.mem_append_left _ sooner, called⟩, answer⟩
  induction made with
  | quoted answered quote positive price => exact .quoted (later answered) quote positive price
  | reversed answered quote positive price zero_iff =>
    exact .reversed (later answered) quote positive price zero_iff
  | converted one two firstPair meet secondPair price zero_iff one' two' =>
    exact .converted one' two' firstPair meet secondPair price zero_iff

theorem isPositive (made : Made s moves lp) (nonzero : lp.price.mantissa ≠ 0) :
    lp.price.IsPositive := by
  induction made with
  | quoted answered quote positive price => rwa [price]
  | reversed answered quote positive price zero_iff =>
    obtain ⟨r, reciprocal, _, sign⟩ := Decimal.reciprocal?_eq_some positive.2
    cases price.symm.trans reciprocal
    exact ⟨sign positive.1, nonzero⟩
  | @converted lp first second one two firstPair meet secondPair price zero_iff one' two' =>
    have nothing : 2 * (first.price.mantissa * second.price.mantissa) ≠ 0 := by
      intro zero
      rw [zero] at zero_iff
      exact nonzero (zero_iff.mpr (Nat.zero_le _))
    have firstPositive := one' fun zero => nothing (by rw [zero]; simp)
    have secondPositive := two' fun zero => nothing (by rw [zero]; simp)
    have sign := (Decimal.mul?_multiplies first.price second.price).sign _ price nonzero
    refine ⟨sign.trans ?_, nonzero⟩
    rw [firstPositive.1, secondPositive.1]
    rfl

end Made

theorem Answered.isPositive {s : Setup ω} {moves : List (Move ω)} {now : Instant}
    {network : Network} {quotes : Quotes} (positive : s.registry.QuotesPositive)
    (answered : Answered s moves now network quotes) {pair : AssetPair} {q : Quote}
    (quote : quotes.get? pair = some q) : q.price.IsPositive := by
  obtain ⟨p, member, call, ⟨m, _, pricing, requested, has, called⟩, answer⟩ := answered
  have registered := (Discovery.mem_having.mp (List.mem_filter.mp member).1).1
  rw [← show _ = call from congrArg Prod.fst called] at answer
  have reply := Call.reply_of_invoke (Pending.outcome_of_poll answer)
  exact positive p registered pricing has requested _ _ _ quotes reply q
    (List.mem_of_find?_eq_some quote)

theorem made_of_means {s : Setup ω} {moves : List (Move ω)} {now : Instant} {key : RequestKey}
    {lp : LatestPrice} (positive : s.registry.QuotesPositive) (means : Means s moves now key lp)
    (legs : ∀ k first, Priced moves k first → first.pair = k.pair ∧ Made s moves first) :
    Made s moves lp := by
  have pair := means.pair
  cases through : lp.via with
  | none =>
    obtain ⟨quotes, q, answered, ⟨_, quote, price⟩ | ⟨_, quote, price⟩⟩ := means.quoted through
    · rw [← pair] at quote
      exact .quoted answered quote (answered.isPositive positive quote) price
    · rw [← pair] at quote
      have quotePositive := answered.isPositive positive quote
      obtain ⟨r, reciprocal, zero_iff, _⟩ := Decimal.reciprocal?_eq_some quotePositive.2
      cases price.symm.trans reciprocal
      exact .reversed answered quote quotePositive price zero_iff
  | some via =>
    obtain ⟨_, _, _, _, first, second, one, two, price, _⟩ := means.converted via through
    obtain ⟨firstPair, firstMade⟩ := legs _ _ one
    obtain ⟨secondPair, secondMade⟩ := legs _ _ two
    refine .converted firstMade secondMade ?_ ?_ ?_ price
      ((Decimal.mul?_multiplies first.price second.price).zero_iff _ price)
    · rw [firstPair, pair]
      rfl
    · rw [firstPair, secondPair]
      rfl
    · rw [secondPair, pair]
      rfl

namespace Desk

variable {s : Setup ω} {d e : Desk ω} {moves : List (Move ω)} {key : RequestKey}

theorem Run.made (run : Run s moves d) (positive : s.registry.QuotesPositive) :
    ∀ m ∈ moves, ∀ f lp, m.Completes f (.ok lp) → lp.pair = f.key.pair ∧ Made s moves lp := by
  induction run with
  | start floor => nofun
  | @move moves d e a run whole step ih =>
    intro m member f lp completes
    rcases List.mem_append.mp member with earlier | last
    · obtain ⟨pair, made⟩ := ih m earlier f lp completes
      exact ⟨pair, made.mono _⟩
    · cases List.mem_singleton.mp last
      have means := completed_price_means run step completes
      refine ⟨means.pair, (made_of_means positive means fun k first priced => ?_).mono _⟩
      obtain ⟨n, sooner, g, same, ended⟩ := priced
      obtain ⟨pair, made⟩ := ih n sooner g first ended
      exact ⟨pair.trans (RequestKey.beq_iff.mp same).1, made⟩

theorem combine_eq_error_iff {pair : AssetPair} {first second : LatestPrice}
    {failure : MarketError} : combine pair first second = .error failure ↔
      twoTo 96 ≤ Decimal.roundHalfEven (first.price.mantissa * second.price.mantissa)
        (tenTo (first.price.scale + second.price.scale)) ∧
      failure = .invalidPrice pair.render s!"overflow combining legs via {first.pair.asset2}" := by
  rw [← (Decimal.mul?_multiplies first.price second.price).none_iff, combine]
  cases first.price.mul? second.price with
  | none => simp [eq_comm]
  | some price => simp

end Desk

/-- What becomes of positive quotes in the price that a caller is given. -/
structure Reckons (s : Setup ω) (moves : List (Move ω)) (m : Move ω) (key : RequestKey) : Prop where
  /-- The price that a caller is given is made from positive quotes, and positive unless zero. -/
  given : ∀ lp, m.Given moves (.ok lp) → lp.pair = key.pair ∧ Made s moves lp ∧
    (lp.price.mantissa = 0 ∨ lp.price.IsPositive)
  reversed : ∀ q : Quote, q.price.mantissa ≠ 0 → ∃ r, q.reversed = .ok r
  overflow : ∀ pair first second failure, Desk.combine pair first second = .error failure ↔
    twoTo 96 ≤ Decimal.roundHalfEven (first.price.mantissa * second.price.mantissa)
      (tenTo (first.price.scale + second.price.scale)) ∧
    failure = .invalidPrice pair.render s!"overflow combining legs via {first.pair.asset2}"

namespace Desk

variable {s : Setup ω} {d e : Desk ω} {moves : List (Move ω)} {key : RequestKey}

/-- A price that is made from positive quotes is positive, or so small that it has vanished. -/
theorem prices_vanish_by_underflow_only (positive : s.registry.QuotesPositive)
    (run : Run s moves d) {m : Move ω} (member : m ∈ moves) (request : m.action = .request key) :
    Reckons s moves m key := by
  constructor
  case given =>
    intro lp given
    obtain ⟨earlier, later, e, f, same, run', _, among, waits, there, stage⟩ :=
      run.collected member request given
    have keyed := (run'.asked_for among request waits).2 f there rfl
    obtain ⟨n, sooner, g, _, sameKey, completes⟩ := run'.completed_of_done there stage
    obtain ⟨pair, made⟩ :=
      run.made positive n (same ▸ List.mem_append_left _ sooner) g lp completes
    rw [sameKey, (RequestKey.beq_iff.mp keyed).1] at pair
    refine ⟨pair, made, ?_⟩
    by_cases zero : lp.price.mantissa = 0
    · exact .inl zero
    · exact .inr (made.isPositive zero)
  case reversed =>
    intro q nonzero
    obtain ⟨r, reciprocal, _⟩ := Decimal.reciprocal?_eq_some nonzero
    simp only [Quote.reversed, reciprocal]
    exact ⟨_, rfl⟩
  case overflow => exact fun pair first second failure => combine_eq_error_iff

def largest : Decimal :=
  ⟨false, twoTo 96 - 1, 0, Nat.sub_lt (by decide) Nat.one_pos, Decimal.one.scale_le⟩

def largestSetup : Setup Unit where
  registry := ⟨[promptQuoter "prompt" 1 true [(.of "BTC" "USD", largest)]],
    List.pairwise_singleton _ _, List.pairwise_singleton _ _⟩
  listingTimeout := 1
  quoteTimeout := 1

theorem largest_isPositive : largestSetup.registry.QuotesPositive := by
  intro p member pricing has requested patience now world quotes answer q quoted
  cases List.mem_singleton.mp member
  cases has
  cases answer
  cases List.mem_singleton.mp quoted
  exact ⟨rfl, by decide⟩

theorem largest_run : ∃ moves d m lp, Run largestSetup moves d ∧ m ∈ moves ∧
    m.action = .request { pair := .of "USD" "BTC" } ∧ m.Given moves (.ok lp) ∧
    lp.price.mantissa = 0 := by
  have run := Run.start (s := largestSetup) promptFloor
    |>.move (a := .request { pair := .of "USD" "BTC" }) rfl rfl
    |>.move (a := .lookup (.flight 0) 0) trivial rfl
    |>.move (a := .lookup (.flight 0) 0) trivial rfl
    |>.move (a := .lookup (.flight 0) 0) trivial rfl
    |>.move (a := .advance 0) trivial rfl
    |>.move (a := .advance 0) trivial rfl
    |>.move (a := .advance 0) trivial rfl
    |>.move (a := .collect 0) trivial rfl
  exact ⟨_, _, _, _, run, .head _, rfl,
    ⟨_, List.mem_append_right _ List.mem_cons_self, rfl, rfl⟩, rfl⟩

/-- The price of a reversed pair may be zero although every quote is positive. -/
theorem largest_price_reverses_to_zero : ∃ moves d m lp,
    largestSetup.registry.QuotesPositive ∧ Run largestSetup moves d ∧ m ∈ moves ∧
    m.action = .request { pair := .of "USD" "BTC" } ∧ m.Given moves (.ok lp) ∧
    ¬ lp.price.IsPositive := by
  obtain ⟨moves, d, m, lp, run, member, request, given, zero⟩ := largest_run
  exact ⟨moves, d, m, lp, largest_isPositive, run, member, request, given,
    fun positive => positive.2 zero⟩

theorem largest_price_is_reckoned : ∃ moves d m lp, Run largestSetup moves d ∧
    m.Given moves (.ok lp) ∧ Reckons largestSetup moves m { pair := .of "USD" "BTC" } := by
  obtain ⟨moves, d, m, lp, run, member, request, given, _⟩ := largest_run
  exact ⟨moves, d, m, lp, run, given,
    prices_vanish_by_underflow_only largest_isPositive run member request⟩

end Desk

end PriceDesk
