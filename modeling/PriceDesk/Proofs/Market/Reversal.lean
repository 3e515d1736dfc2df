import Mathlib.Algebra.Order.Field.Basic
import Mathlib.Algebra.Order.Field.Rat
import PriceDesk.Market.Quote
import PriceDesk.Proofs.Decimal.Reciprocal

namespace PriceDesk

namespace Decimal

def value (d : Decimal) : ℚ :=
  (if d.negative then -(d.mantissa : ℚ) else d.mantissa) / tenTo d.scale

variable {a b a' b' : Decimal}

theorem tenTo_cast_pos (n : Nat) : (0 : ℚ) < tenTo n := Nat.cast_pos.mpr (tenTo_pos n)

theorem value_eq_zero_iff : a.value = 0 ↔ a.mantissa = 0 := by
  have places := (tenTo_cast_pos a.scale).ne'
  unfold value
  split <;> simp [places]

theorem value_pos_iff : 0 < a.value ↔ a.negative = false ∧ a.mantissa ≠ 0 := by
  have places := tenTo_cast_pos a.scale
  unfold value
  cases a.negative with
  | true =>
    rw [if_pos rfl, div_pos_iff_of_pos_right places]
    simp
  | false =>
    rw [if_neg Bool.false_ne_true, div_pos_iff_of_pos_right places, Nat.cast_pos]
    simp [Nat.pos_iff_ne_zero]

theorem value_le_iff (nonnegative : a.negative = false) (nonnegative' : b.negative = false) :
    a.value ≤ b.value ↔ a.mantissa * tenTo b.scale ≤ b.mantissa * tenTo a.scale := by
  rw [value, value, nonnegative, nonnegative', if_neg Bool.false_ne_true, if_neg Bool.false_ne_true,
    div_le_div_iff₀ (tenTo_cast_pos _) (tenTo_cast_pos _)]
  exact_mod_cast Iff.rfl

theorem Inverts.anti (inverts : a'.Inverts a) (inverts' : b'.Inverts b) (positive : 0 < a.value)
    (less : a.value ≤ b.value) : b'.value ≤ a'.value := by
  obtain ⟨nonnegative, nonzero⟩ := value_pos_iff.mp positive
  obtain ⟨nonnegative', nonzero'⟩ := value_pos_iff.mp (positive.trans_le less)
  obtain ⟨places, finest, same⟩ := inverts.finest
  obtain ⟨places', finest', same'⟩ := inverts'.finest
  rw [value_le_iff nonnegative nonnegative'] at less
  rw [value_le_iff (inverts'.nonnegative nonnegative') (inverts.nonnegative nonnegative)]
  have anti := finest.anti finest' (Nat.pos_of_ne_zero nonzero) (Nat.pos_of_ne_zero nonzero') less
  -- Both are compared at the places at which they were rounded.
  apply Nat.le_of_mul_le_mul_right _ (Nat.mul_pos (tenTo_pos places) (tenTo_pos places'))
  calc b'.mantissa * tenTo a'.scale * (tenTo places * tenTo places')
      = b'.mantissa * tenTo places' * (tenTo a'.scale * tenTo places) := by ring
    _ = rounded b.mantissa b.scale places' * tenTo places * (tenTo a'.scale * tenTo b'.scale) := by
      rw [same']
      ring
    _ ≤ rounded a.mantissa a.scale places * tenTo places' * (tenTo a'.scale * tenTo b'.scale) :=
      Nat.mul_le_mul_right _ anti
    _ = a'.mantissa * tenTo places * (tenTo b'.scale * tenTo places') := by
      rw [same]
      ring
    _ = a'.mantissa * tenTo b'.scale * (tenTo places * tenTo places') := by ring

end Decimal

namespace Statistics

variable {s : Statistics}

structure Positive (s : Statistics) : Prop where
  highestBid : ∀ d ∈ s.highestBid, 0 < d.value
  lowestAsk : ∀ d ∈ s.lowestAsk, 0 < d.value
  low : ∀ d ∈ s.low, 0 < d.value
  high : ∀ d ∈ s.high, 0 < d.value

structure Coherent (s : Statistics) : Prop where
  spread : ∀ bid ∈ s.highestBid, ∀ ask ∈ s.lowestAsk, bid.value ≤ ask.value
  range : ∀ low ∈ s.low, ∀ high ∈ s.high, low.value ≤ high.value

/-- Whether each field of `r` is the reciprocal of the field that changed places with it, and is
there exactly where that one is. -/
structure Opposite (r s : Statistics) : Prop where
  highestBid : Option.Rel Decimal.Inverts r.highestBid s.lowestAsk
  lowestAsk : Option.Rel Decimal.Inverts r.lowestAsk s.highestBid
  low : Option.Rel Decimal.Inverts r.low s.high
  high : Option.Rel Decimal.Inverts r.high s.low

theorem rel_bind_reciprocal? {x : Option Decimal} (positive : ∀ d ∈ x, 0 < d.value) :
    Option.Rel Decimal.Inverts (x.bind Decimal.reciprocal?) x := by
  cases x with
  | none => exact .none
  | some d =>
    obtain ⟨_, nonzero⟩ := Decimal.value_pos_iff.mp (positive d rfl)
    obtain ⟨r, known, inverts⟩ := Decimal.exists_reciprocal? nonzero
    rw [Option.bind_some, known]
    exact .some inverts

theorem Positive.opposite (positive : s.Positive) : s.reversed.Opposite s where
  highestBid := rel_bind_reciprocal? positive.lowestAsk
  lowestAsk := rel_bind_reciprocal? positive.highestBid
  low := rel_bind_reciprocal? positive.high
  high := rel_bind_reciprocal? positive.low

theorem le_of_rel {x y x' y' : Option Decimal} (less : Option.Rel Decimal.Inverts x' x)
    (more : Option.Rel Decimal.Inverts y' y) (positive : ∀ d ∈ x, 0 < d.value)
    (inOrder : ∀ d ∈ x, ∀ e ∈ y, d.value ≤ e.value) :
    ∀ r ∈ y', ∀ t ∈ x', r.value ≤ t.value := by
  cases less with
  | none => exact fun _ _ _ member => nomatch member
  | some inverts =>
    cases more with
    | none => exact fun _ member => nomatch member
    | some inverts' =>
      rintro r ⟨⟩ t ⟨⟩
      exact inverts.anti inverts' (positive _ rfl) (inOrder _ rfl _ rfl)

theorem Opposite.coherent {r : Statistics} (opposite : r.Opposite s) (positive : s.Positive)
    (coherent : s.Coherent) : r.Coherent where
  spread := le_of_rel opposite.lowestAsk opposite.highestBid positive.highestBid coherent.spread
  range := le_of_rel opposite.high opposite.low positive.low coherent.range

end Statistics

namespace Quote

variable {q r t : Quote}

/-- Whether a quote is the reverse of another: its price is the reciprocal, and the amounts of the
volume have changed places. -/
structure Mirrors (r q : Quote) : Prop where
  pair : r.pair = ⟨q.pair.asset2, q.pair.asset1⟩
  network : r.network = q.network
  price : r.price.Inverts q.price
  statistics : r.statistics = q.statistics.map Statistics.reversed
  volume : r.volume = q.volume.map fun v =>
    { v with pair := ⟨v.pair.asset2, v.pair.asset1⟩, base := v.quote, quote := v.base }

theorem reversed_eq_ok (reverses : q.reversed = .ok r) : r.Mirrors q := by
  unfold reversed at reverses
  split at reverses
  · rename_i price known
    cases reverses
    exact ⟨rfl, rfl, Decimal.inverts_of_reciprocal? known, rfl, rfl⟩
  · cases reverses

theorem reversed_eq_error_iff {e : MarketError} : q.reversed = .error e ↔
    q.price.value = 0 ∧ e = .invalidPrice q.pair.render "cannot reverse a zero price" := by
  rw [Decimal.value_eq_zero_iff, ← Decimal.reciprocal?_eq_none_iff]
  unfold reversed
  cases q.price.reciprocal? with
  | some price => simp
  | none => simp [eq_comm]

theorem Mirrors.restored (mirrors : r.Mirrors q) (again : t.Mirrors r) :
    t.pair = q.pair ∧ t.network = q.network ∧ t.volume = q.volume := by
  refine ⟨?_, again.network.trans mirrors.network, ?_⟩
  · rw [again.pair, mirrors.pair]
  · rw [again.volume, mirrors.volume, Option.map_map]
    exact congrFun Option.map_id q.volume

/-- Statistics that are in order are so for the reversed pair. A quote has a reverse unless its
price is zero, and what it says apart from prices comes back if it is reversed again. -/
theorem reversal_keeps_order :
    (∀ s : Statistics, s.Positive → s.Coherent →
      s.reversed.Coherent ∧ s.reversed.Opposite s) ∧
    ∀ q : Quote,
      (∀ e, q.reversed = .error e ↔
        q.price.value = 0 ∧ e = .invalidPrice q.pair.render "cannot reverse a zero price") ∧
      ∀ r, q.reversed = .ok r → r.Mirrors q ∧
        ∀ t, r.reversed = .ok t →
          t.pair = q.pair ∧ t.network = q.network ∧ t.volume = q.volume := by
  constructor
  · intro s positive coherent
    exact ⟨positive.opposite.coherent positive coherent, positive.opposite⟩
  · intro q
    refine ⟨fun e => reversed_eq_error_iff, fun r reverses => ?_⟩
    have mirrors := reversed_eq_ok reverses
    exact ⟨mirrors, fun t again => mirrors.restored (reversed_eq_ok again)⟩

def thirds : Statistics where
  highestBid := some ⟨false, 3, 0, by decide, Decimal.zero.scale_le⟩
  lowestAsk := some ⟨false, 7, 0, by decide, Decimal.zero.scale_le⟩
  high := some ⟨false, 3, 0, by decide, Decimal.zero.scale_le⟩

theorem thirds_positive : thirds.Positive where
  highestBid := by rintro _ ⟨⟩; exact Decimal.value_pos_iff.mpr (by decide)
  lowestAsk := by rintro _ ⟨⟩; exact Decimal.value_pos_iff.mpr (by decide)
  low := nofun
  high := by rintro _ ⟨⟩; exact Decimal.value_pos_iff.mpr (by decide)

theorem thirds_coherent : thirds.Coherent where
  spread := by
    rintro _ ⟨⟩ _ ⟨⟩
    exact (Decimal.value_le_iff rfl rfl).mpr (by decide)
  range := nofun

def thirdsQuote : Quote where
  network := ⟨"Alpha"⟩
  pair := .of "BTC" "EUR"
  price := ⟨false, 3, 0, by decide, Decimal.zero.scale_le⟩
  statistics := some thirds
  volume := some ⟨⟨"Alpha"⟩, .of "BTC" "EUR", some .one, none⟩

theorem thirdsQuote_keeps_order : ∃ r t,
    (thirds.Positive ∧ thirds.Coherent ∧ thirds.reversed.Coherent ∧
      thirds.reversed.Opposite thirds) ∧
    thirdsQuote.reversed = .ok r ∧ r.reversed = .ok t ∧ r.Mirrors thirdsQuote ∧
    t.pair = thirdsQuote.pair ∧ t.network = thirdsQuote.network ∧
    t.volume = thirdsQuote.volume := by
  obtain ⟨statistics, quotes⟩ := reversal_keeps_order
  have inOrder := statistics thirds thirds_positive thirds_coherent
  have reverses : ∀ q : Quote, q.price.mantissa ≠ 0 → ∃ r, q.reversed = .ok r := by
    intro q nonzero
    cases result : q.reversed with
    | ok r => exact ⟨r, rfl⟩
    | error e =>
      have vanishes := (((quotes q).1 e).mp result).1
      exact absurd (Decimal.value_eq_zero_iff.mp vanishes) nonzero
  obtain ⟨r, once⟩ := reverses thirdsQuote (by decide)
  obtain ⟨mirrors, restores⟩ := (quotes thirdsQuote).2 r once
  have third : r.price.mantissa ≠ 0 := by
    rw [Ne, mirrors.price.eq_zero_iff (by decide)]
    decide
  obtain ⟨t, twice⟩ := reverses r third
  exact ⟨r, t, ⟨thirds_positive, thirds_coherent, inOrder⟩, once, twice, mirrors,
    restores t twice⟩

end Quote

end PriceDesk
