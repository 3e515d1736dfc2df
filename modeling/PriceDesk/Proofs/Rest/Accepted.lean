import PriceDesk.Proofs.Rest.Places
import PriceDesk.Proofs.Rest.Splitting

namespace PriceDesk

open Payload

theorem Listing.isEmpty_ofList (ps : List AssetPair) :
    (Listing.ofList ps).isEmpty = ps.isEmpty := by
  cases ps with
  | nil => rfl
  | cons p ps =>
    have listed : p ∈ (Listing.ofList (p :: ps)).pairs := mem_extend.mpr (.inr List.mem_cons_self)
    simpa [PairSet.isEmpty] using List.ne_nil_of_mem listed

theorem PairMap.isEmpty_foldl {α : Type} (entries : List (AssetPair × α)) (m : PairMap α) :
    (entries.foldl (fun m (p, value) => m.insert p value) m).isEmpty =
      (m.isEmpty && entries.isEmpty) := by
  induction entries generalizing m with
  | nil => simp
  | cons entry entries ih =>
    simp only [List.foldl_cons, ih]
    simp [insert, isEmpty]

theorem PairMap.isEmpty_ofList {α : Type} (entries : List (AssetPair × α)) :
    (ofList entries).isEmpty = entries.isEmpty :=
  isEmpty_foldl entries empty

def PairsEndpoint.Legible (endpoint : PairsEndpoint) (codes : Codes) : Prop :=
  match endpoint.shape, endpoint.baseField, endpoint.quoteField with
  | .array, some base, some quote => trail base = trail quote ∨ Apart (trail base) (trail quote)
  | _, _, _ => codes.Reads

theorem Codes.exists_asset (codes : Codes) : ∃ code, (codes.asset code).isEmpty = false := by
  obtain ⟨n, positive, longer⟩ := exists_longer codes.aliases
  refine ⟨String.ofList (List.replicate n 'A'), isEmpty_of_long positive longer Text.plain_a ?_⟩
  rw [String.toList_ofList, List.count_replicate_self]

theorem exists_of_isEmpty_filterMap {α β : Type} {f : α → Option β} {l : List α}
    (some : (l.filterMap f).isEmpty = false) : ∃ a ∈ l, (f a).isSome := by
  cases values : l.filterMap f with
  | nil => simp [values] at some
  | cons b rest =>
    have mem : b ∈ l.filterMap f := by simp [values]
    obtain ⟨a, listed, value⟩ := List.mem_filterMap.mp mem
    exact ⟨a, listed, by simp [value]⟩

theorem pairs_entries {part : Json} {endpoint : PairsEndpoint} {codes : Codes}
    (unnamed : endpoint.shape = .object ∨ endpoint.baseField = none ∨ endpoint.quoteField = none)
    (direct : endpoint.pointer = none) :
    pairs part endpoint codes =
      .ofList ((entries part endpoint.shape endpoint.symbolField).filterMap
        fun (ticker, _) => codes.parseTicker ticker) := by
  obtain ⟨_, pointer, shape, _, baseField, quoteField⟩ := endpoint
  subst direct
  cases shape <;> cases baseField <;> cases quoteField <;> simp_all [pairs, select]

theorem exists_entries (shape : PayloadShape) (symbolField text : String) :
    ∃ part entry, entries part shape symbolField = [(text, entry)] := by
  cases shape with
  | object => exact ⟨.obj [(text, .null)], .null, rfl⟩
  | array => exact ⟨.arr [.str text], .str text, rfl⟩

theorem namedPair_isSome {codes : Codes} {base quote : String} {item : Json} :
    (namedPair codes base quote item).isSome ↔ ∃ u v first second,
      field item base = some u ∧ u.str? = some first ∧
      field item quote = some v ∧ v.str? = some second ∧ (codes.pair? first second).isSome := by
  simp only [namedPair, Option.bind_eq_bind, Option.isSome_bind, Option.any_eq_true]
  constructor
  · rintro ⟨u, foundFirst, first, textFirst, v, foundSecond, second, textSecond, both⟩
    exact ⟨u, v, first, second, foundFirst, textFirst, foundSecond, textSecond, both⟩
  · rintro ⟨u, v, first, second, foundFirst, textFirst, foundSecond, textSecond, both⟩
    exact ⟨u, foundFirst, first, textFirst, v, foundSecond, second, textSecond, both⟩

theorem exists_named_iff (codes : Codes) {base quote : String} :
    (∃ item, (namedPair codes base quote item).isSome) ↔
      trail base = trail quote ∨ Apart (trail base) (trail quote) := by
  constructor
  · rintro ⟨item, named⟩
    obtain ⟨u, v, first, second, foundFirst, textFirst, foundSecond, textSecond, -⟩ :=
      namedPair_isSome.mp named
    exact apart_of_bare (bare_of_str? textFirst) (bare_of_str? textSecond)
      (follow_of_field foundFirst) (follow_of_field foundSecond)
  · obtain ⟨code, means⟩ := codes.exists_asset
    have both : (codes.pair? code code).isSome := Codes.isSome_pair?.mpr ⟨means, means⟩
    rintro (same | apart)
    · obtain ⟨members, found⟩ := exists_field base (.str code)
      have foundQuote : field (.obj members) quote = some (.str code) := by
        rw [field_obj, ← same, ← field_obj, found]
      exact ⟨.obj members, namedPair_isSome.mpr
        ⟨_, _, code, code, found, rfl, foundQuote, rfl, both⟩⟩
    · obtain ⟨members, foundBase, foundQuote⟩ := exists_fields apart (.str code) (.str code)
      exact ⟨.obj members, namedPair_isSome.mpr
        ⟨_, _, code, code, foundBase, rfl, foundQuote, rfl, both⟩⟩

theorem exists_unnamed_iff {endpoint : PairsEndpoint} {codes : Codes}
    (unnamed : endpoint.shape = .object ∨ endpoint.baseField = none ∨ endpoint.quoteField = none)
    (direct : endpoint.pointer = none) :
    (∃ part, (pairs part endpoint codes).isEmpty = false) ↔ codes.Reads := by
  simp only [pairs_entries unnamed direct, Listing.isEmpty_ofList]
  constructor
  · rintro ⟨part, some⟩
    obtain ⟨entry, -, read⟩ := exists_of_isEmpty_filterMap some
    exact ⟨entry.1, read⟩
  · rintro ⟨text, read⟩
    obtain ⟨part, entry, single⟩ := exists_entries endpoint.shape endpoint.symbolField text
    obtain ⟨pair, value⟩ := Option.isSome_iff_exists.mp read
    exact ⟨part, by simp [single, value]⟩

theorem pairs_legible (endpoint : PairsEndpoint) (codes : Codes)
    (direct : endpoint.pointer = none) :
    (∃ part, (pairs part endpoint codes).isEmpty = false) ↔ endpoint.Legible codes := by
  obtain ⟨url, pointer, shape, symbolField, baseField, quoteField⟩ := endpoint
  subst direct
  cases shape with
  | object => exact exists_unnamed_iff (.inl rfl) rfl
  | array =>
    cases baseField with
    | none => exact exists_unnamed_iff (.inr (.inl rfl)) rfl
    | some base =>
      cases quoteField with
      | none => exact exists_unnamed_iff (.inr (.inr rfl)) rfl
      | some quote =>
        refine Iff.trans ⟨?_, ?_⟩ (exists_named_iff codes)
        · rintro ⟨part, some⟩
          cases part with
          | arr items =>
            simp only [pairs, select, Listing.isEmpty_ofList] at some
            obtain ⟨item, -, named⟩ := exists_of_isEmpty_filterMap some
            exact ⟨item, named⟩
          | null | bool _ | num _ | str _ | obj _ => cases some
        · rintro ⟨item, named⟩
          obtain ⟨pair, value⟩ := Option.isSome_iff_exists.mp named
          exact ⟨.arr [item], by simp [pairs, select, Listing.isEmpty_ofList, value]⟩

theorem pairs_eq (payload : Json) (endpoint : PairsEndpoint) (codes : Codes) :
    pairs payload endpoint codes =
      match select payload endpoint.pointer with
      | none => .empty
      | some part => pairs part { endpoint with pointer := none } codes := rfl

theorem exists_pairs_iff (endpoint : PairsEndpoint) (codes : Codes) :
    (∃ payload, (pairs payload endpoint codes).isEmpty = false) ↔
      isPointer endpoint.pointer = true ∧ endpoint.Legible codes := by
  have inner := pairs_legible { endpoint with pointer := none } codes rfl
  constructor
  · rintro ⟨payload, some⟩
    rw [pairs_eq] at some
    cases chosen : select payload endpoint.pointer with
    | none => simp [chosen, PairSet.isEmpty, Listing.empty] at some
    | some part =>
      rw [chosen] at some
      exact ⟨isPointer_of_select chosen, inner.mp ⟨part, some⟩⟩
  · rintro ⟨sound, legible⟩
    obtain ⟨part, some⟩ := inner.mpr legible
    obtain ⟨payload, chosen⟩ := exists_select sound part
    refine ⟨payload, ?_⟩
    rw [pairs_eq, chosen]
    exact some

def TickersEndpoint.Legible (endpoint : TickersEndpoint) (codes : Codes) : Prop :=
  let symbol := trail endpoint.symbolField
  let last := trail endpoint.fields.last
  match endpoint.shape with
  | .object => codes.Reads
  | .array =>
    Apart symbol last ∧ codes.Reads ∨
      symbol = last ∧
        ∃ text, (codes.parseTicker text).isSome ∧ (decimal (.str text)).isSome

theorem ticker_isSome {entry : Json} {fields : TickerFields} :
    (ticker entry fields).isSome ↔
      ∃ value, field entry fields.last = some value ∧ (decimal value).isSome := by
  have value : (ticker entry fields).isSome = (decimalAt entry fields.last).isSome := by
    simp only [ticker, Option.bind_eq_bind]
    cases decimalAt entry fields.last <;> rfl
  rw [value, decimalAt, Option.bind_some, Option.isSome_bind, Option.any_eq_true]

theorem tickers_isEmpty {part : Json} {shape : PayloadShape} {symbolField : String}
    {fields : TickerFields} {codes : Codes} :
    (tickers part shape symbolField fields codes).isEmpty = false ↔
      ∃ name entry, (name, entry) ∈ entries part shape symbolField ∧
        (codes.parseTicker name).isSome ∧ (ticker entry fields).isSome := by
  rw [tickers, PairMap.isEmpty_ofList]
  constructor
  · intro some
    obtain ⟨⟨name, entry⟩, mem, read⟩ := exists_of_isEmpty_filterMap some
    refine ⟨name, entry, mem, ?_⟩
    cases first : codes.parseTicker name with
    | none => simp [first] at read
    | some pair =>
      cases second : ticker entry fields with
      | none => simp [first, second] at read
      | some value => exact ⟨rfl, rfl⟩
  · rintro ⟨name, entry, mem, first, second⟩
    obtain ⟨pair, parsed⟩ := Option.isSome_iff_exists.mp first
    obtain ⟨value, read⟩ := Option.isSome_iff_exists.mp second
    have kept : (pair, value) ∈ (entries part shape symbolField).filterMap fun (name, entry) => do
        return (← codes.parseTicker name, ← ticker entry fields) :=
      List.mem_filterMap.mpr ⟨(name, entry), mem, by simp [parsed, read]⟩
    simpa using List.ne_nil_of_mem kept

theorem symbol_of_mem_entries {part entry : Json} {symbolField name : String}
    {fields : TickerFields} (mem : (name, entry) ∈ entries part .array symbolField)
    (tells : (ticker entry fields).isSome) : field entry symbolField = some (.str name) := by
  cases part with
  | null | bool _ | num _ | str _ | obj _ => cases mem
  | arr items =>
    obtain ⟨item, -, named⟩ := List.mem_filterMap.mp mem
    obtain ⟨value, found, -⟩ := ticker_isSome.mp tells
    cases item with
    | str text =>
      cases named
      rw [field_str] at found
      cases found
    | null | bool _ | num _ | arr _ | obj _ =>
      obtain ⟨text, symbol, same⟩ := Option.map_eq_some_iff.mp named
      cases same
      obtain ⟨value, present, string⟩ := Option.bind_eq_some_iff.mp symbol
      cases value with
      | str _ =>
        cases string
        exact present
      | null | bool _ | num _ | arr _ | obj _ => cases string

theorem tickers_of_object {symbolField text : String} {fields : TickerFields} {codes : Codes}
    (read : (codes.parseTicker text).isSome) :
    ∃ part, (tickers part .object symbolField fields codes).isEmpty = false := by
  obtain ⟨members, found⟩ := exists_field fields.last (.str "1")
  refine ⟨.obj [(text, .obj members)], tickers_isEmpty.mpr ⟨text, .obj members, ?_, read, ?_⟩⟩
  · exact List.mem_singleton.mpr rfl
  · exact ticker_isSome.mpr ⟨_, found, by decide⟩

theorem tickers_of_array {symbolField text : String} {fields : TickerFields} {codes : Codes}
    {members : List (String × Json)} {last : Json} (read : (codes.parseTicker text).isSome)
    (symbol : field (.obj members) symbolField = some (.str text))
    (found : field (.obj members) fields.last = some last) (priced : (decimal last).isSome) :
    ∃ part, (tickers part .array symbolField fields codes).isEmpty = false := by
  refine ⟨.arr [.obj members], tickers_isEmpty.mpr ⟨text, .obj members, ?_, read, ?_⟩⟩
  · simp [entries, symbol, Json.str?]
  · exact ticker_isSome.mpr ⟨last, found, priced⟩

theorem tickers_legible (endpoint : TickersEndpoint) (codes : Codes) :
    (∃ part, (tickers part endpoint.shape endpoint.symbolField endpoint.fields codes).isEmpty =
      false) ↔ endpoint.Legible codes := by
  obtain ⟨url, pointer, shape, symbolField, fields⟩ := endpoint
  constructor
  · rintro ⟨part, some⟩
    obtain ⟨name, entry, mem, read, tells⟩ := tickers_isEmpty.mp some
    cases shape with
    | object => exact ⟨name, read⟩
    | array =>
      have symbol := symbol_of_mem_entries mem tells
      obtain ⟨value, found, priced⟩ := ticker_isSome.mp tells
      obtain ⟨d, decimal⟩ := Option.isSome_iff_exists.mp priced
      rcases apart_of_bare (bare_of_str? rfl) (bare_of_decimal decimal) (follow_of_field symbol)
        (follow_of_field found) with same | apart
      · have one := follow_of_field found
        rw [← same, follow_of_field symbol] at one
        cases one
        exact .inr ⟨same, name, read, priced⟩
      · exact .inl ⟨apart, name, read⟩
  · cases shape with
    | object =>
      rintro ⟨text, read⟩
      exact tickers_of_object read
    | array =>
      rintro (⟨apart, text, read⟩ | ⟨same, text, read, priced⟩)
      · obtain ⟨members, symbol, last⟩ := exists_fields apart (.str text) (.str "1")
        exact tickers_of_array read symbol last (by decide)
      · obtain ⟨members, symbol⟩ := exists_field symbolField (.str text)
        have last : field (.obj members) fields.last = some (.str text) := by
          rw [field_obj, ← same, ← field_obj, symbol]
        exact tickers_of_array read symbol last priced

theorem exists_tickers_iff (endpoint : TickersEndpoint) (codes : Codes) :
    (∃ payload part, select payload endpoint.pointer = some part ∧
      (tickers part endpoint.shape endpoint.symbolField endpoint.fields codes).isEmpty = false) ↔
      isPointer endpoint.pointer = true ∧ endpoint.Legible codes := by
  constructor
  · rintro ⟨payload, part, chosen, some⟩
    exact ⟨isPointer_of_select chosen, (tickers_legible endpoint codes).mp ⟨part, some⟩⟩
  · rintro ⟨sound, legible⟩
    obtain ⟨part, some⟩ := (tickers_legible endpoint codes).mpr legible
    obtain ⟨payload, chosen⟩ := exists_select sound part
    exact ⟨payload, part, chosen, some⟩

structure Readable (e : ExchangeDescription) : Prop where
  listing : ∀ endpoint, e.pairs = some endpoint →
    ((∃ payload, (pairs payload endpoint (.of e)).isEmpty = false) ↔
      isPointer endpoint.pointer = true ∧ endpoint.Legible (.of e))
  table : ∀ endpoint, e.tickers = some endpoint →
    ((∃ payload part, select payload endpoint.pointer = some part ∧
        (tickers part endpoint.shape endpoint.symbolField endpoint.fields (.of e)).isEmpty =
          false) ↔
      isPointer endpoint.pointer = true ∧ endpoint.Legible (.of e))
  separated : ∀ separator, e.pairSeparator = some separator →
    ((Codes.of e).Reads ↔ ∃ t, separator ∈ Text.upperChar t)
  joined : e.pairSeparator = none → ((Codes.of e).asset "A").isEmpty = false →
    ((Codes.of e).Reads ↔
      ∃ q ∈ e.quoteAssets, ((Codes.of e).asset (Codes.canonical q)).isEmpty = false)
  splits : ∀ endpoint, e.pairs = some endpoint →
    endpoint.baseField = none ∨ endpoint.quoteField = none →
    e.pairSeparator ≠ none ∨ e.quoteAssets ≠ []

theorem not_lacksSplit_of_accepted {e : ExchangeDescription} (accepted : e.validate = .ok ()) :
    e.lacksSplit = false := by
  cases lacks : e.lacksSplit with
  | false => rfl
  | true =>
    unfold ExchangeDescription.validate at accepted
    rw [lacks, if_pos rfl] at accepted
    repeat' split at accepted
    all_goals cases accepted

/-- Some payload fills an endpoint of an accepted description just if the pointer of the endpoint
can be followed and its places and codes leave room for an entry. -/
theorem accepted_description_is_readable {e : ExchangeDescription}
    (accepted : e.validate = .ok ()) : Readable e where
  listing endpoint _ := exists_pairs_iff endpoint (.of e)
  table endpoint _ := exists_tickers_iff endpoint (.of e)
  separated _ separator := Codes.reads_iff_of_separator separator
  joined none letter := Codes.reads_iff_of_quotes none letter
  splits endpoint pairs missing := by
    have splits := not_lacksSplit_of_accepted accepted
    by_cases separator : e.pairSeparator = none
    · refine .inr fun quotes => ?_
      rcases missing with base | quote
      · simp [ExchangeDescription.lacksSplit, separator, quotes, pairs, base] at splits
      · simp [ExchangeDescription.lacksSplit, separator, quotes, pairs, quote] at splits
    · exact .inl separator

def dollarTable : ExchangeDescription :=
  { id := "x", network := "X", baseUrl := "http://mock", quoteAssets := ["usd"]
    tickers := some
      { path := "/t", pointer := some "/result", shape := .array, fields := { last := "/c/0" } } }

theorem dollar_table_is_readable :
    dollarTable.validate = .ok () ∧
      ∃ payload part, select payload (some "/result") = some part ∧
        (tickers part .array "symbol" { last := "/c/0" } (.of dollarTable)).isEmpty = false := by
  have accepted : dollarTable.validate = .ok () := by decide +kernel
  have readable := accepted_description_is_readable accepted
  have reads : (Codes.of dollarTable).Reads :=
    (readable.joined rfl (by decide)).mpr ⟨"usd", by decide, by decide⟩
  have apart : Apart (trail "symbol") (trail "/c/0") := by
    unfold Apart
    decide
  exact ⟨accepted, (readable.table _ rfl).mpr ⟨by decide, .inl ⟨apart, reads⟩⟩⟩

def unsplitTable : ExchangeDescription :=
  { id := "x", network := "X", baseUrl := "http://mock"
    tickers := some { path := "/t", fields := { last := "p" } } }

/-- An accepted description whose table gives no ticker, whatever the exchange answers. -/
theorem unsplit_table_is_lost :
    unsplitTable.validate = .ok () ∧
      ∃ endpoint, unsplitTable.tickers = some endpoint ∧ endpoint.isSinglePair = false ∧
        ¬ ∃ payload part, select payload endpoint.pointer = some part ∧
          (tickers part endpoint.shape endpoint.symbolField endpoint.fields
            (.of unsplitTable)).isEmpty = false := by
  refine ⟨by decide +kernel, _, rfl, by decide, fun filled => ?_⟩
  obtain ⟨-, reads⟩ := (exists_tickers_iff _ _).mp filled
  obtain ⟨q, listed, -⟩ := (Codes.reads_iff_of_quotes rfl (by decide)).mp reads
  cases listed

end PriceDesk
