import Mathlib.Data.List.Nodup
import PriceDesk.Market.PairMap
import PriceDesk.Provider.Preference

namespace PriceDesk

namespace AssetPair

variable {p q r : AssetPair}

theorem compare_eq_eq_iff : p.compare q = .eq ↔ p = q := by
  rw [compare, Ordering.then_eq_eq, compareOfLessAndEq_eq_eq String.le_refl String.not_le,
    compareOfLessAndEq_eq_eq String.le_refl String.not_le]
  constructor
  · obtain ⟨base, quote⟩ := p
    rintro ⟨same, same'⟩
    cases Asset.ext same
    cases Asset.ext same'
    rfl
  · rintro rfl
    exact ⟨rfl, rfl⟩

theorem compare_isLE_iff : (p.compare q).isLE = true ↔
    p.asset1.code < q.asset1.code ∨
      p.asset1.code = q.asset1.code ∧ p.asset2.code ≤ q.asset2.code := by
  rw [compare, isLE_then_compareOfLessAndEq String.le_refl String.not_le,
    isLE_compareOfLessAndEq String.le_antisymm String.not_le String.le_total]

theorem compare_isLE_trans (p q r : AssetPair) (one : (p.compare q).isLE = true)
    (two : (q.compare r).isLE = true) : (p.compare r).isLE = true := by
  rw [compare_isLE_iff] at one two ⊢
  rcases one with less | ⟨same, le⟩
  · rcases two with less' | ⟨same', _⟩
    · exact .inl (String.lt_trans less less')
    · exact .inl (same' ▸ less)
  · rcases two with less' | ⟨same', le'⟩
    · exact .inl (same ▸ less')
    · exact .inr ⟨same.trans same', String.le_trans le le'⟩

theorem compare_isLE_total (p q : AssetPair) :
    ((p.compare q).isLE || (q.compare p).isLE) = true := by
  rw [Bool.or_eq_true, compare_isLE_iff, compare_isLE_iff]
  rcases Std.lt_trichotomy p.asset1.code q.asset1.code with less | same | greater
  · exact .inl (.inl less)
  · exact (String.le_total p.asset2.code q.asset2.code).imp (.inr ⟨same, ·⟩) (.inr ⟨same.symm, ·⟩)
  · exact .inr (.inl greater)

theorem compare_eq_lt (differ : p ≠ q) (le : (p.compare q).isLE = true) : p.compare q = .lt := by
  cases order : p.compare q with
  | lt => rfl
  | eq => exact absurd (compare_eq_eq_iff.mp order) differ
  | gt => simp [order] at le

end AssetPair

section FirstOccurrences

variable {α : Type} [BEq α] [LawfulBEq α] {as : List α} {f : α → Bool} {b c : α}

theorem idxOf_lt_of_filter (keeps : f b = true) (keeps' : f c = true)
    (before : (as.filter f).idxOf b < (as.filter f).idxOf c) : as.idxOf b < as.idxOf c := by
  induction as with
  | nil => exact absurd before (Nat.lt_irrefl _)
  | cons a as ih =>
    by_cases kept : f a = true
    · rw [List.filter_cons_of_pos kept] at before
      simp only [List.idxOf_cons] at before ⊢
      cases first : a == b <;> cases second : a == c <;>
        simp only [first, second, cond_true, cond_false] at before ⊢ <;> omega
    · have other : (a == b) = false := by
        simpa using fun same : a = b => kept (same ▸ keeps)
      have other' : (a == c) = false := by
        simpa using fun same : a = c => kept (same ▸ keeps')
      rw [List.filter_cons_of_neg kept] at before
      simpa [List.idxOf_cons, other, other'] using ih before

theorem eraseDups_inOrder (as : List α) :
    as.eraseDups.Pairwise fun b c => as.idxOf b < as.idxOf c := by
  cases as with
  | nil => simp
  | cons a as =>
    have others : ∀ b ∈ (as.filter fun b => !b == a).eraseDups, (a == b) = false := by
      intro b member
      have differs : (!b == a) = true := (List.mem_filter.mp (List.mem_eraseDups.mp member)).2
      rw [BEq.comm]
      simpa using differs
    rw [List.eraseDups_cons, List.pairwise_cons]
    refine ⟨fun b member => ?_, ?_⟩
    · simp [List.idxOf_cons, others b member]
    · refine (eraseDups_inOrder (as.filter fun b => !b == a)).imp_of_mem
        fun {b c} member member' before => ?_
      have keeps : (!b == a) = true := (List.mem_filter.mp (List.mem_eraseDups.mp member)).2
      have keeps' : (!c == a) = true := (List.mem_filter.mp (List.mem_eraseDups.mp member')).2
      have order := idxOf_lt_of_filter (f := fun b => !b == a) keeps keeps' before
      simpa [List.idxOf_cons, others b member, others c member'] using order
termination_by as.length
decreasing_by exact Nat.lt_succ_of_le (List.length_filter_le _ as)

theorem nodup_eraseDups (as : List α) : as.eraseDups.Nodup := by
  cases as with
  | nil => simp
  | cons a as =>
    rw [List.eraseDups_cons, List.nodup_cons]
    exact ⟨by simp [List.mem_eraseDups], nodup_eraseDups _⟩
termination_by as.length
decreasing_by exact Nat.lt_succ_of_le (List.length_filter_le _ as)

theorem eraseDups_concat (as : List α) (b : α) :
    (as ++ [b]).eraseDups = if b ∈ as then as.eraseDups else as.eraseDups ++ [b] := by
  rw [List.eraseDups_append]
  by_cases known : b ∈ as
  · simp [List.removeAll, known]
  · simp [List.removeAll, known, List.eraseDups_cons]

end FirstOccurrences

variable {α β : Type}

namespace PairMap

/-- Whether there is one value for each pair, and each value stands under its own pair. -/
structure Keyed (own : α → AssetPair) (m : PairMap α) : Prop where
  distinct : (m.entries.map (·.1)).Nodup
  labelled : ∀ x ∈ m.entries, own x.2 = x.1

inductive Divided (own : α → AssetPair) (m : PairMap α) :
    RequestedPairs → List α → List AssetPair → Prop
  | named {ps : List AssetPair} {found : List α} {missed : List AssetPair}
      (once : (found.map own ++ missed).Nodup)
      (exhausts : ∀ p, p ∈ found.map own ++ missed ↔ p ∈ ps)
      (given : ∀ v ∈ found, (own v, v) ∈ m.entries)
      (absent : ∀ p ∈ missed, ∀ v, (p, v) ∉ m.entries)
      (inOrder : (found.map own).Pairwise fun p q => ps.idxOf p < ps.idxOf q)
      (missedInOrder : missed.Pairwise fun p q => ps.idxOf p < ps.idxOf q) :
      Divided own m (.pairs ps) found missed
  | everything {found : List α} (same : found.Perm (m.entries.map (·.2)))
      (ascending : (found.map own).Pairwise fun p q => p.compare q = .lt) :
      Divided own m .all found []

variable {own : α → AssetPair} {m : PairMap α} {d : Division α} {ps : List AssetPair}
  {p q : AssetPair} {v : α}

theorem lookup_filter_ne (other : q ≠ p) (entries : List (AssetPair × α)) :
    (entries.filter (·.1 != p)).lookup q = entries.lookup q := by
  induction entries with
  | nil => rfl
  | cons entry entries ih =>
    obtain ⟨r, w⟩ := entry
    by_cases same : r = p
    · have passed : (q == r) = false := beq_eq_false_iff_ne.mpr (same ▸ other)
      rw [List.filter_cons_of_neg (by simp [same]), List.lookup_cons, passed, ih]
    · rw [List.filter_cons_of_pos (by simp [same]), List.lookup_cons, List.lookup_cons, ih]

theorem get?_remove : (m.remove p).2.get? q = if q = p then none else m.get? q := by
  by_cases same : q = p
  · rw [if_pos same, same, get?, remove, List.lookup_eq_none_iff]
    intro entry member
    have other := (List.mem_filter.mp member).2
    exact bne_iff_ne.mpr (Ne.symm (bne_iff_ne.mp other))
  · rw [if_neg same, get?, remove, lookup_filter_ne same, get?]

/-- How things stand when some pairs have been gone through: they and no others have been seen and
taken out of the rest, and each of them is found or missed. -/
structure Division.Covers (m : PairMap α) (ps : List AssetPair) (d : Division α) : Prop where
  seen : ∀ p, p ∈ d.seen ↔ p ∈ ps
  rest : ∀ p, d.rest.get? p = if p ∈ ps then none else m.get? p
  found : d.found = ps.eraseDups.filterMap m.get?
  missed : d.missed = ps.eraseDups.filter fun p => (m.get? p).isNone

namespace Division

theorem covers_nil (m : PairMap α) : Covers m [] { rest := m } where
  seen p := by simp
  rest p := by simp
  found := rfl
  missed := rfl

theorem take_of_seen (covers : Covers m ps d) (known : p ∈ ps) : d.take p = d := by
  rw [take, if_pos (List.contains_iff_mem.mpr ((covers.seen p).mpr known))]

/-- A pair that is named for the first time is found or missed by what the whole map has for it:
no pair before it has taken that. -/
theorem take_of_new (covers : Covers m ps d) (new : p ∉ ps) :
    d.take p = { seen := p :: d.seen, rest := (d.rest.remove p).2,
                 found := d.found ++ (m.get? p).toList,
                 missed := d.missed ++ if (m.get? p).isNone then [p] else [] } := by
  have unseen : ¬ d.seen.contains p = true :=
    fun seen => new ((covers.seen p).mp (List.contains_iff_mem.mp seen))
  have left : d.rest.get? p = m.get? p := by rw [covers.rest, if_neg new]
  rw [take, if_neg unseen, remove, left]
  cases m.get? p with
  | some v => simp
  | none => simp

theorem Covers.take (covers : Covers m ps d) (p : AssetPair) : Covers m (ps ++ [p]) (d.take p) := by
  by_cases known : p ∈ ps
  · have named : ∀ q, q ∈ ps ++ [p] ↔ q ∈ ps := by simp +contextual [known]
    rw [take_of_seen covers known]
    constructor
    case seen => exact fun q => (covers.seen q).trans (named q).symm
    case rest => simpa only [named] using covers.rest
    case found => rw [eraseDups_concat, if_pos known, covers.found]
    case missed => rw [eraseDups_concat, if_pos known, covers.missed]
  · rw [take_of_new covers known]
    constructor
    case seen =>
      intro q
      rw [List.mem_cons, covers.seen, List.mem_append, List.mem_singleton, or_comm]
    case rest =>
      intro q
      rw [get?_remove, covers.rest]
      by_cases same : q = p <;> simp [same]
    case found =>
      rw [eraseDups_concat, if_neg known, List.filterMap_append, covers.found]
      cases got : m.get? p <;> simp [got]
    case missed =>
      rw [eraseDups_concat, if_neg known, List.filter_append, covers.missed]
      cases got : m.get? p <;> simp [got]

theorem Covers.foldl (covers : Covers m ps d) (qs : List AssetPair) :
    Covers m (ps ++ qs) (qs.foldl Division.take d) := by
  induction qs generalizing ps d with
  | nil => rwa [List.append_nil]
  | cons q qs ih => simpa using ih (covers.take q)

end Division

/-- Going through the named pairs, each takes what the whole map has for it. -/
theorem split_pairs (m : PairMap α) (ps : List AssetPair) :
    m.split (.pairs ps) =
      (ps.eraseDups.filterMap m.get?, ps.eraseDups.filter fun p => (m.get? p).isNone) := by
  have covers := (Division.covers_nil m).foldl ps
  exact Prod.ext covers.found covers.missed

theorem mem_of_get? (got : m.get? p = some v) : (p, v) ∈ m.entries := by
  obtain ⟨before, after, split, _⟩ := List.lookup_eq_some_iff.mp got
  exact split ▸ List.mem_append_right _ List.mem_cons_self

theorem not_mem_of_get? (none : m.get? p = none) : (p, v) ∉ m.entries := by
  intro member
  simpa using List.lookup_eq_none_iff.mp none _ member

theorem map_filterMap_get? (labelled : ∀ x ∈ m.entries, own x.2 = x.1) (ps : List AssetPair) :
    (ps.filterMap m.get?).map own = ps.filter fun p => (m.get? p).isSome := by
  induction ps with
  | nil => rfl
  | cons p ps ih =>
    cases got : m.get? p with
    | none => simpa [got] using ih
    | some v =>
      have label : own v = p := labelled _ (mem_of_get? got)
      simpa [got, label] using ih

theorem divided_named (labelled : ∀ x ∈ m.entries, own x.2 = x.1) (ps : List AssetPair) :
    Divided own m (.pairs ps) (m.split (.pairs ps)).1 (m.split (.pairs ps)).2 := by
  have found := map_filterMap_get? labelled ps.eraseDups
  have apart : ((ps.eraseDups.filter fun p => (m.get? p).isSome) ++
      ps.eraseDups.filter fun p => (m.get? p).isNone).Perm ps.eraseDups := by
    simpa using List.filter_append_perm (fun p => (m.get? p).isSome) ps.eraseDups
  rw [split_pairs]
  refine .named ?_ (fun p => ?_) (fun v member => ?_) (fun p member v => ?_) ?_ ?_
  · rw [found]
    exact apart.nodup_iff.mpr (nodup_eraseDups ps)
  · rw [found, apart.mem_iff, List.mem_eraseDups]
  · obtain ⟨p, _, got⟩ := List.mem_filterMap.mp member
    have entry := mem_of_get? got
    rwa [labelled _ entry]
  · exact not_mem_of_get? (Option.isNone_iff_eq_none.mp (List.mem_filter.mp member).2)
  · rw [found]
    exact (eraseDups_inOrder ps).filter _
  · exact (eraseDups_inOrder ps).filter _

theorem perm_sorted (m : PairMap α) : m.sorted.Perm m.entries := List.mergeSort_perm _ _

theorem pairwise_sorted (m : PairMap α) :
    m.sorted.Pairwise fun a b => (a.1.compare b.1).isLE = true := by
  refine List.pairwise_mergeSort (fun a b c one two => ?_) (fun a b => ?_) m.entries
  · exact AssetPair.compare_isLE_trans a.1 b.1 c.1 one two
  · exact AssetPair.compare_isLE_total a.1 b.1

theorem divided_all (keyed : m.Keyed own) :
    Divided own m .all (m.split .all).1 (m.split .all).2 := by
  have perm := m.perm_sorted
  have labels : (m.sorted.map (·.2)).map own = m.sorted.map (·.1) := by
    rw [List.map_map]
    exact List.map_congr_left fun x member => keyed.labelled x (perm.mem_iff.mp member)
  have distinct : (m.sorted.map (·.1)).Nodup := (perm.map _).nodup_iff.mpr keyed.distinct
  have ordered : (m.sorted.map (·.1)).Pairwise fun p q => (p.compare q).isLE = true :=
    List.pairwise_map.mpr m.pairwise_sorted
  refine .everything (perm.map _) ?_
  show ((m.sorted.map (·.2)).map own).Pairwise fun p q => p.compare q = .lt
  rw [labels]
  exact (distinct.and ordered).imp fun ⟨differ, le⟩ => AssetPair.compare_eq_lt differ le

theorem divided_split (keyed : m.Keyed own) (requested : RequestedPairs) :
    Divided own m requested (m.split requested).1 (m.split requested).2 := by
  cases requested with
  | all => exact divided_all keyed
  | pairs ps => exact divided_named keyed.labelled ps

theorem isEmpty_iff : m.isEmpty = true ↔ m.entries = [] := List.isEmpty_iff

section Answers

variable {quotes : PairMap Quote} {volumes : PairMap TradedVolume} {provider : String}
  {requested : RequestedPairs} {e : MarketError}

theorem quotes_eq_error_iff : quotes.quotes provider requested = .error e ↔
    quotes.entries = [] ∧ e = .providerResponse provider "get_pricing" "No tickers returned" := by
  rw [PairMap.quotes]
  split
  · next none => simp [isEmpty_iff.mp none, eq_comm]
  · next some => simp [mt isEmpty_iff.mpr some]

theorem quotes_of_filled (filled : quotes.entries ≠ []) :
    quotes.quotes provider requested =
      .ok { quotes := (quotes.split requested).1, missed := (quotes.split requested).2 } := by
  rw [PairMap.quotes, if_neg (mt isEmpty_iff.mp filled)]

theorem volumes_eq_error_iff : volumes.volumes provider requested = .error e ↔
    volumes.entries = [] ∧
      e = .providerResponse provider "get_volume" "No volume data returned" := by
  rw [PairMap.volumes]
  split
  · next none => simp [isEmpty_iff.mp none, eq_comm]
  · next some => simp [mt isEmpty_iff.mpr some]

theorem volumes_of_filled (filled : volumes.entries ≠ []) :
    volumes.volumes provider requested =
      .ok { volumes := (volumes.split requested).1, missed := (volumes.split requested).2 } := by
  rw [PairMap.volumes, if_neg (mt isEmpty_iff.mp filled)]

end Answers

/-- Answers lose nothing and invent nothing: out of an empty map there is only an error, and any
other map is divided by what was asked for. -/
theorem answers_divide_map {quotes : PairMap Quote} {volumes : PairMap TradedVolume}
    (quoted : quotes.Keyed Quote.pair) (traded : volumes.Keyed TradedVolume.pair)
    (provider : String) (requested : RequestedPairs) :
    ((∀ e, quotes.quotes provider requested = .error e ↔ quotes.entries = [] ∧
        e = .providerResponse provider "get_pricing" "No tickers returned") ∧
      (quotes.entries ≠ [] → ∃ a, quotes.quotes provider requested = .ok a ∧
        Divided Quote.pair quotes requested a.quotes a.missed)) ∧
    (∀ e, volumes.volumes provider requested = .error e ↔ volumes.entries = [] ∧
        e = .providerResponse provider "get_volume" "No volume data returned") ∧
      (volumes.entries ≠ [] → ∃ a, volumes.volumes provider requested = .ok a ∧
        Divided TradedVolume.pair volumes requested a.volumes a.missed) :=
  ⟨⟨fun _ => quotes_eq_error_iff,
      fun filled => ⟨_, quotes_of_filled filled, divided_split quoted requested⟩⟩,
    fun _ => volumes_eq_error_iff,
    fun filled => ⟨_, volumes_of_filled filled, divided_split traded requested⟩⟩

def coinQuotes : PairMap Quote :=
  ⟨[(.of "ETH" "USD", { network := ⟨"Coins"⟩, pair := .of "ETH" "USD", price := .one }),
    (.of "BTC" "USD", { network := ⟨"Coins"⟩, pair := .of "BTC" "USD", price := .one })]⟩

def coinVolumes : PairMap TradedVolume :=
  ⟨[(.of "ETH" "USD", ⟨⟨"Coins"⟩, .of "ETH" "USD", some .one, none⟩)]⟩

/-- A pair that is named twice is missed once, and all quotes come in the order of their pairs. -/
theorem coins_are_divided :
    let ps := [AssetPair.of "LTC" "USD", .of "ETH" "USD", .of "LTC" "USD", .of "BTC" "USD"]
    coinQuotes.Keyed Quote.pair ∧ coinVolumes.Keyed TradedVolume.pair ∧
      (∃ a, coinQuotes.quotes "coins" (.pairs ps) = .ok a ∧
        Divided Quote.pair coinQuotes (.pairs ps) a.quotes a.missed ∧
        a.quotes.map (·.pair) = [.of "ETH" "USD", .of "BTC" "USD"] ∧
        a.missed = [.of "LTC" "USD"]) ∧
      ∃ a, coinVolumes.volumes "coins" .all = .ok a ∧
        Divided TradedVolume.pair coinVolumes .all a.volumes a.missed := by
  intro ps
  have quoted : coinQuotes.Keyed Quote.pair := ⟨by decide, by simp [coinQuotes]⟩
  have traded : coinVolumes.Keyed TradedVolume.pair := ⟨by decide, by simp [coinVolumes]⟩
  obtain ⟨⟨_, named⟩, _⟩ := answers_divide_map quoted traded "coins" (.pairs ps)
  obtain ⟨_, _, everything⟩ := answers_divide_map quoted traded "coins" .all
  obtain ⟨a, answered, divided⟩ := named (List.cons_ne_nil _ _)
  refine ⟨quoted, traded, ⟨a, answered, divided, ?_⟩, everything (List.cons_ne_nil _ _)⟩
  have known : coinQuotes.quotes "coins" (.pairs ps) = .ok _ := rfl
  cases answered.symm.trans known
  exact ⟨by decide, by decide⟩

end PairMap

end PriceDesk
