import PriceDesk.Proofs.Json.Order
import PriceDesk.Proofs.Rest.Harvest

namespace PriceDesk

/-- Whether a list is what is left of another one when some elements that are such are taken out. -/
inductive Thinned {α : Type} (P : α → Prop) : List α → List α → Prop
  | nil : Thinned P [] []
  | keep {as bs : List α} (a : α) (rest : Thinned P as bs) : Thinned P (a :: as) (a :: bs)
  | drop {a : α} {as bs : List α} (such : P a) (rest : Thinned P as bs) : Thinned P (a :: as) bs

section Thinned

variable {α β : Type} {P : α → Prop} {as bs : List α}

theorem Thinned.filterMap_eq {f : α → Option β} (thinned : Thinned P as bs)
    (without : ∀ a, P a → f a = none) : bs.filterMap f = as.filterMap f := by
  induction thinned with
  | nil => rfl
  | keep a _ ih => rw [List.filterMap_cons, List.filterMap_cons, ih]
  | drop such _ ih => rw [List.filterMap_cons, without _ such, ih]

theorem thinned_filter {p : α → Bool} (such : ∀ a, p a = false → P a) (as : List α) :
    Thinned P as (as.filter p) := by
  induction as with
  | nil => exact .nil
  | cons a as ih =>
    cases kept : p a with
    | true =>
      rw [List.filter_cons_of_pos kept]
      exact .keep a ih
    | false =>
      rw [List.filter_cons_of_neg (by simp [kept])]
      exact .drop (such a kept) ih

end Thinned

section Last

variable {α β : Type} {as : List α}

theorem last_map_iff {P : β → Prop} {f : α → β} {b : β} :
    Last P (as.map f) b ↔ ∃ a, Last (fun a => P (f a)) as a ∧ f a = b := by
  induction as using List.reverseRecOn with
  | nil => exact iff_of_false not_last_nil fun ⟨_, last, _⟩ => not_last_nil last
  | append_singleton as c ih =>
    rw [List.map_append, List.map_singleton, last_concat_iff, ih]
    simp only [last_concat_iff, or_and_right, exists_or, and_assoc, exists_and_left,
      exists_eq_left]
    exact or_congr_left (and_congr_right fun _ => eq_comm)

theorem last_iff_of_pairwise {P : α → Prop} {R : α → α → Prop} {a : α}
    (asymmetric : ∀ a b, R a b → ¬ R b a) (ordered : as.Pairwise R) :
    Last P as a ↔ P a ∧ a ∈ as ∧ ∀ b ∈ as, P b → b = a ∨ R b a := by
  constructor
  · rintro ⟨such, before, after, rfl, none⟩
    refine ⟨such, List.mem_append_right _ List.mem_cons_self, fun b there such => ?_⟩
    rcases List.mem_append.mp there with earlier | there
    · exact .inr ((List.pairwise_append.mp ordered).2.2 b earlier a List.mem_cons_self)
    · rcases List.mem_cons.mp there with same | later
      · exact .inl same
      · exact absurd such (none b later)
  · rintro ⟨such, there, greatest⟩
    obtain ⟨before, after, rfl⟩ := List.append_of_mem there
    refine ⟨such, before, after, rfl, fun b later such => ?_⟩
    have above : R a b :=
      (List.pairwise_cons.mp (List.pairwise_append.mp ordered).2.1).1 b later
    rcases greatest b (List.mem_append_right _ (List.mem_cons_of_mem _ later)) such with rfl | below
    · exact asymmetric b b above above
    · exact asymmetric a b above below

end Last

namespace Payload

abbrev Part := Option String × Json

/-- The name of an element of an array: a text names itself, anything else has its name under a
field. -/
def nameOf (symbolField : String) : Json → Option String
  | .str text => some text
  | element => (field element symbolField).bind Json.str?

/-- The parts of a payload in order: the members of an object under their keys, or the elements of
an array under the names that they have. A payload of another shape has no parts. -/
def parts (payload : Json) (shape : PayloadShape) (symbolField : String) : List Part :=
  match shape, payload with
  | .object, .obj members => members.map fun (key, entry) => (some key, entry)
  | .array, .arr items => items.map fun item => (nameOf symbolField item, item)
  | _, _ => []

def ReadsAt (entry : Json) (place : Option String) (d : Decimal) : Prop :=
  ∃ location value, place = some location ∧ field entry location = some value ∧
    decimal value = some d

/-- Whether a ticker is what an entry tells. What has no place, no value at its place, or a value
that does not read as a decimal is absent. -/
structure Tells (entry : Json) (fields : TickerFields) (t : Ticker) : Prop where
  last : ReadsAt entry (some fields.last) t.last
  bid : ∀ d, t.statistics.highestBid = some d ↔ ReadsAt entry fields.bid d
  ask : ∀ d, t.statistics.lowestAsk = some d ↔ ReadsAt entry fields.ask d
  low : ∀ d, t.statistics.low = some d ↔ ReadsAt entry fields.low d
  high : ∀ d, t.statistics.high = some d ↔ ReadsAt entry fields.high d
  volume : ∀ d, t.volume = some d ↔ ReadsAt entry fields.volume d
  quoteVolume : ∀ d, t.quoteVolume = some d ↔ ReadsAt entry fields.quoteVolume d

section Parts

variable (codes : Codes) (fields : TickerFields)

def Usable (p : AssetPair) (part : Part) : Prop :=
  (∃ name, part.1 = some name ∧ codes.parseTicker name = some p) ∧
    ∃ d, ReadsAt part.2 (some fields.last) d

/-- A part of no use: it has no name, a name that is no pair, or no last price. -/
inductive Broken : Part → Prop
  | unnamed (entry : Json) : Broken (none, entry)
  | unparsable {name : String} (entry : Json) (unknown : codes.parseTicker name = none) :
    Broken (some name, entry)
  | unpriced {name : Option String} {entry : Json}
    (without : ∀ d, ¬ ReadsAt entry (some fields.last) d) : Broken (name, entry)

structure Collected (payload : Json) (shape : PayloadShape) (symbolField : String) : Prop where
  told : ∀ p t, (tickers payload shape symbolField fields codes).get? p = some t ↔
    ∃ part, Last (Usable codes fields p) (parts payload shape symbolField) part ∧
      Tells part.2 fields t
  greatest : ∀ members, shape = .object → payload = .obj members → ∀ p t,
    (tickers payload shape symbolField fields codes).get? p = some t ↔
      ∃ key entry, (key, entry) ∈ members ∧ Usable codes fields p (some key, entry) ∧
        (∀ key' entry', (key', entry') ∈ members → Usable codes fields p (some key', entry') →
          key' ≤ key) ∧ Tells entry fields t
  same : ∀ thinner, Thinned (Broken codes fields) (parts payload shape symbolField)
      (parts thinner shape symbolField) →
    tickers thinner shape symbolField fields codes = tickers payload shape symbolField fields codes
  cleared : ∃ cleared : Json, Thinned (Broken codes fields) (parts payload shape symbolField)
      (parts cleared shape symbolField) ∧
    ∀ part ∈ parts cleared shape symbolField, ¬ Broken codes fields part

end Parts

variable {codes : Codes} {fields : TickerFields} {payload entry : Json} {shape : PayloadShape}
  {symbolField : String} {p : AssetPair} {t : Ticker} {part : Part} {place : Option String}
  {d : Decimal}

theorem decimalAt_eq_some_iff : decimalAt entry place = some d ↔ ReadsAt entry place d := by
  simp only [decimalAt, ReadsAt, Option.bind_eq_some_iff]
  constructor
  · rintro ⟨value, ⟨location, given, found⟩, read⟩
    exact ⟨location, value, given, found, read⟩
  · rintro ⟨location, value, given, found, read⟩
    exact ⟨value, ⟨location, given, found⟩, read⟩

theorem ticker_eq_some_iff : ticker entry fields = some t ↔ Tells entry fields t := by
  have last : ticker entry fields = some t ↔ ∃ last,
      decimalAt entry (some fields.last) = some last ∧ ⟨last, ⟨decimalAt entry fields.bid,
        decimalAt entry fields.ask, decimalAt entry fields.low, decimalAt entry fields.high⟩,
        decimalAt entry fields.volume, decimalAt entry fields.quoteVolume⟩ = t := by
    simp only [ticker, Option.bind_eq_bind, Option.bind_eq_some_iff, Option.pure_def,
      Option.some.injEq]
  rw [last]
  constructor
  · rintro ⟨d, read, rfl⟩
    exact ⟨decimalAt_eq_some_iff.mp read, fun _ => decimalAt_eq_some_iff,
      fun _ => decimalAt_eq_some_iff, fun _ => decimalAt_eq_some_iff,
      fun _ => decimalAt_eq_some_iff, fun _ => decimalAt_eq_some_iff,
      fun _ => decimalAt_eq_some_iff⟩
  · intro tells
    have agree {value : Option Decimal} {place : Option String}
        (iff : ∀ d, value = some d ↔ ReadsAt entry place d) : value = decimalAt entry place :=
      Option.ext fun d => (iff d).trans decimalAt_eq_some_iff.symm
    obtain ⟨price, ⟨bid, ask, low, high⟩, volume, quoteVolume⟩ := t
    refine ⟨price, decimalAt_eq_some_iff.mpr tells.last, ?_⟩
    rw [← agree tells.bid, ← agree tells.ask, ← agree tells.low, ← agree tells.high,
      ← agree tells.volume, ← agree tells.quoteVolume]

theorem Usable.exists_tells (usable : Usable codes fields p part) : ∃ t, Tells part.2 fields t := by
  obtain ⟨_, d, read⟩ := usable
  exact ⟨_, ticker_eq_some_iff.mp (by rw [ticker, decimalAt_eq_some_iff.mpr read]; rfl)⟩

theorem Usable.pair_eq {q : AssetPair} (usable : Usable codes fields p part)
    (usable' : Usable codes fields q part) : p = q := by
  obtain ⟨⟨name, named, parsed⟩, -⟩ := usable
  obtain ⟨⟨name', named', parsed'⟩, -⟩ := usable'
  cases named.symm.trans named'
  exact Option.some.inj (parsed.symm.trans parsed')

theorem broken_iff : Broken codes fields part ↔ ∀ p, ¬ Usable codes fields p part := by
  constructor
  · rintro (entry | ⟨entry, unknown⟩ | without) p ⟨⟨name, named, parsed⟩, d, read⟩
    · cases named
    · cases named
      rw [unknown] at parsed
      cases parsed
    · exact without d read
  · intro useless
    obtain ⟨name?, entry⟩ := part
    cases name? with
    | none => exact .unnamed entry
    | some name =>
      cases parsed : codes.parseTicker name with
      | none => exact .unparsable entry parsed
      | some p =>
        exact .unpriced fun d read => useless p ⟨⟨name, rfl, parsed⟩, d, read⟩

variable (codes fields) in
def told? (part : Part) : Option (AssetPair × Ticker) := do
  return (← codes.parseTicker (← part.1), ← ticker part.2 fields)

theorem told?_eq_some_iff :
    told? codes fields part = some (p, t) ↔ Usable codes fields p part ∧ Tells part.2 fields t := by
  have both : told? codes fields part = some (p, t) ↔
      (∃ name, part.1 = some name ∧ codes.parseTicker name = some p) ∧
        ticker part.2 fields = some t := by
    simp only [told?, Option.bind_eq_bind, Option.bind_eq_some_iff, Option.pure_def,
      Option.some.injEq, Prod.mk.injEq]
    constructor
    · rintro ⟨name, named, q, parsed, u, told, rfl, rfl⟩
      exact ⟨⟨name, named, parsed⟩, told⟩
    · rintro ⟨⟨name, named, parsed⟩, told⟩
      exact ⟨name, named, p, parsed, t, told, rfl, rfl⟩
  rw [both, ticker_eq_some_iff]
  exact ⟨fun ⟨named, tells⟩ => ⟨⟨named, t.last, tells.last⟩, tells⟩,
    fun ⟨usable, tells⟩ => ⟨usable.1, tells⟩⟩

theorem told?_eq_none_iff : told? codes fields part = none ↔ Broken codes fields part := by
  rw [broken_iff, Option.eq_none_iff_forall_ne_some]
  constructor
  · intro none p usable
    obtain ⟨t, tells⟩ := usable.exists_tells
    exact none (p, t) (told?_eq_some_iff.mpr ⟨usable, tells⟩)
  · rintro useless ⟨p, t⟩ told
    exact useless p (told?_eq_some_iff.mp told).1

theorem tickers_eq : tickers payload shape symbolField fields codes =
    .ofList ((parts payload shape symbolField).filterMap (told? codes fields)) := by
  refine congrArg PairMap.ofList ?_
  cases shape with
  | object =>
    cases payload with
    | obj members =>
      rw [entries, parts, List.filterMap_map]
      rfl
    | null | bool _ | num _ | str _ | arr _ => rfl
  | array =>
    cases payload with
    | arr items =>
      rw [entries, parts, List.filterMap_filterMap, List.filterMap_map]
      refine List.filterMap_congr fun item _ => ?_
      cases item with
      | str text => rfl
      | null | bool _ | num _ | arr _ | obj _ =>
        simp only [nameOf, told?, Function.comp]
        cases (field _ symbolField).bind Json.str? <;> rfl
    | null | bool _ | num _ | str _ | obj _ => rfl

theorem ofList_concat (told : List (AssetPair × Ticker)) (p : AssetPair) (t : Ticker) :
    PairMap.ofList (told ++ [(p, t)]) = (PairMap.ofList told).insert p t := List.foldl_concat ..

theorem get?_tickers_of_parts {ps : List Part} :
    (PairMap.ofList (ps.filterMap (told? codes fields))).get? p = some t ↔
      ∃ part, Last (Usable codes fields p) ps part ∧ Tells part.2 fields t := by
  induction ps using List.reverseRecOn with
  | nil => exact iff_of_false nofun fun ⟨_, last, _⟩ => not_last_nil last
  | append_singleton ps part ih =>
    simp only [List.filterMap_append, last_concat_iff, or_and_right, exists_or, and_assoc,
      exists_and_left, exists_eq_left, ← ih]
    cases told : told? codes fields part with
    | none =>
      have useless := broken_iff.mp (told?_eq_none_iff.mp told) p
      simp [told, useless]
    | some entry =>
      obtain ⟨q, u⟩ := entry
      obtain ⟨usable, tells⟩ := told?_eq_some_iff.mp told
      rw [List.filterMap_cons, told, List.filterMap_nil, ofList_concat, PairMap.get?_insert]
      by_cases same : p = q
      · subst same
        have one : u = t ↔ Tells part.2 fields t := by
          rw [← ticker_eq_some_iff, ticker_eq_some_iff.mpr tells, Option.some.injEq]
        simp [usable, one]
      · have other : ¬ Usable codes fields p part := fun useful => same (useful.pair_eq usable)
        simp [same, other]

/-- In an object whose members are in order the last usable part is the usable member with the
greatest key. -/
theorem last_member_iff {members : List (String × Json)} (ascending : Json.Ascending members) :
    Last (Usable codes fields p) (parts (.obj members) .object symbolField) part ↔
      ∃ key entry, (key, entry) ∈ members ∧ Usable codes fields p (some key, entry) ∧
        (∀ key' entry', (key', entry') ∈ members → Usable codes fields p (some key', entry') →
          key' ≤ key) ∧ part = (some key, entry) := by
  have asymmetric (a b : String × Json) (below : a.1 < b.1) : ¬ b.1 < a.1 := String.lt_asymm below
  have distinct : (members.map (·.1)).Nodup := by
    refine List.pairwise_map.mpr (List.Pairwise.imp (fun {a b} less same => ?_) ascending)
    exact String.lt_irrefl b.1 (same ▸ less)
  rw [parts, last_map_iff]
  simp only [last_iff_of_pairwise asymmetric ascending]
  constructor
  · rintro ⟨⟨key, entry⟩, ⟨usable, there, greatest⟩, rfl⟩
    refine ⟨key, entry, there, usable, fun key' entry' there' usable' => ?_, rfl⟩
    rcases greatest (key', entry') there' usable' with same | below
    · cases same
      exact String.le_refl key
    · exact String.not_lt.mp (String.lt_asymm below)
  · rintro ⟨key, entry, there, usable, greatest, rfl⟩
    refine ⟨(key, entry), ⟨usable, there, fun other there' usable' => ?_⟩, rfl⟩
    refine or_iff_not_imp_left.mpr fun others => String.not_le.mp fun above => ?_
    have same : other.1 = key := String.le_antisymm (greatest _ _ there' usable') above
    exact others (List.inj_on_of_nodup_map distinct there' there same)

theorem exists_parts_filter (payload : Json) (shape : PayloadShape) (symbolField : String)
    (keep : Part → Bool) :
    ∃ thinner, parts thinner shape symbolField =
      (parts payload shape symbolField).filter keep := by
  cases shape with
  | object =>
    cases payload with
    | obj members =>
      exact ⟨.obj (members.filter fun (key, entry) => keep (some key, entry)),
        (List.filter_map ..).symm⟩
    | null | bool _ | num _ | str _ | arr _ => exact ⟨.null, rfl⟩
  | array =>
    cases payload with
    | arr items =>
      exact ⟨.arr (items.filter fun item => keep (nameOf symbolField item, item)),
        (List.filter_map ..).symm⟩
    | null | bool _ | num _ | str _ | obj _ => exact ⟨.null, rfl⟩

/-- The tickers of a payload are those that the last usable parts for the pairs tell, and broken
parts change nothing. -/
theorem tickers_are_collected (ordered : payload.Ordered) (shape : PayloadShape)
    (symbolField : String) (fields : TickerFields) (codes : Codes) :
    Collected codes fields payload shape symbolField where
  told p t := by rw [tickers_eq, get?_tickers_of_parts]
  greatest := by
    rintro members rfl rfl p t
    cases ordered with
    | obj ascending _ =>
      simp only [tickers_eq, get?_tickers_of_parts, last_member_iff ascending]
      constructor
      · rintro ⟨_, ⟨key, entry, there, usable, greatest, rfl⟩, tells⟩
        exact ⟨key, entry, there, usable, greatest, tells⟩
      · rintro ⟨key, entry, there, usable, greatest, tells⟩
        exact ⟨_, ⟨key, entry, there, usable, greatest, rfl⟩, tells⟩
  same thinner thinned := by
    rw [tickers_eq, tickers_eq, thinned.filterMap_eq fun _ broken => told?_eq_none_iff.mpr broken]
  cleared := by
    have broken (part : Part) : (told? codes fields part).isSome = false ↔
        Broken codes fields part := by
      rw [Option.isSome_eq_false_iff, Option.isNone_iff_eq_none, told?_eq_none_iff]
    obtain ⟨cleared, kept⟩ := exists_parts_filter payload shape symbolField
      fun part => (told? codes fields part).isSome
    refine ⟨cleared, ?_, fun part there useless => ?_⟩
    · rw [kept]
      exact thinned_filter (fun part => (broken part).mp) _
    · rw [kept] at there
      obtain ⟨-, told⟩ := List.mem_filter.mp there
      exact Bool.false_ne_true (((broken part).mpr useless).symm.trans told)

theorem ordered_of_select {whole : Json} {pointer : Option String} (ordered : whole.Ordered)
    (selected : select whole pointer = some payload) : payload.Ordered := by
  cases pointer with
  | none =>
    cases selected
    exact ordered
  | some pointer => exact ordered.select? selected

/-- What an exchange sends: three names for one pair, one of them without a price that can be read,
and a name that is no pair. -/
def aliasedTable : String :=
  "\x7b\"result\":\x7b\"ZRX_USD\":\x7b\"p\":\"n/a\"\x7d," ++
    "\"XBT_USD\":\x7b\"p\":\"2\",\"v\":\"\"\x7d," ++
    "\"total\":\x7b\"p\":\"3\"\x7d,\"BTC_USD\":\x7b\"p\":\"1\"\x7d\x7d\x7d"

def aliasedCodes : Codes where
  separator := some '_'
  aliases := [("XBT", .of "BTC"), ("ZRX", .of "BTC")]

def aliasedFields : TickerFields := { last := "p", volume := some "v" }

/-- In the order of the keys the second of three names for a pair is the last one with a price. -/
theorem aliased_table_is_collected :
    ∃ whole payload, Json.ofText? aliasedTable = some whole ∧
      select whole (some "/result") = some payload ∧ payload.Ordered ∧
      Collected aliasedCodes aliasedFields payload .object "symbol" ∧
      ((tickers payload .object "symbol" aliasedFields aliasedCodes).get?
        (.of "BTC" "USD")).map (fun t => (t.last.render, t.volume)) = some ("2", none) := by
  have told : (((Json.ofText? aliasedTable).bind (select · (some "/result"))).bind fun payload =>
      (tickers payload .object "symbol" aliasedFields aliasedCodes).get? (.of "BTC" "USD")).map
        (fun t => (t.last.render, t.volume)) = some ("2", none) := by
    decide +kernel
  obtain ⟨t, found, shown⟩ := Option.map_eq_some_iff.mp told
  obtain ⟨payload, selected, found⟩ := Option.bind_eq_some_iff.mp found
  obtain ⟨whole, read, selected⟩ := Option.bind_eq_some_iff.mp selected
  have ordered : payload.Ordered := ordered_of_select (Json.ordered_ofText? read) selected
  refine ⟨whole, payload, read, selected, ordered, ?_, by rw [found, Option.map_some, shown]⟩
  exact tickers_are_collected ordered .object "symbol" aliasedFields aliasedCodes

end Payload

end PriceDesk
