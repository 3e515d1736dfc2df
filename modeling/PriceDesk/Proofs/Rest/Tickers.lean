import PriceDesk.Proofs.Rest.Splitting
import PriceDesk.Proofs.Text.Capitals

namespace PriceDesk

open Text

section Table

variable {entries : List (String × Asset)} {code : String} {a : Asset}

theorem lookup_of_mem_entries {α : Type} {entries : List (String × α)} {a : α}
    (distinct : (entries.map (·.1)).Nodup) (member : (code, a) ∈ entries) :
    entries.lookup code = some a := by
  obtain ⟨before, after, rfl⟩ := List.append_of_mem member
  rw [List.map_append, List.nodup_append] at distinct
  refine List.lookup_eq_some_iff.mpr ⟨before, after, rfl, fun entry early => ?_⟩
  rw [bne_iff_ne]
  exact (distinct.2.2 entry.1 (List.mem_map_of_mem early) code List.mem_cons_self).symm

theorem find?_of_mem_entries (distinct : (entries.map (·.2)).Nodup)
    (member : (code, a) ∈ entries) : entries.find? (·.2 == a) = some (code, a) := by
  obtain ⟨before, after, rfl⟩ := List.append_of_mem member
  rw [List.map_append, List.nodup_append] at distinct
  refine List.find?_eq_some_iff_append.mpr ⟨beq_self_eq_true a, before, after, rfl, ?_⟩
  intro entry early
  have other := distinct.2.2 entry.2 (List.mem_map_of_mem early) a List.mem_cons_self
  simpa using other

end Table

theorem Asset.settled {a : Asset} (ascii : Ascii a.code.toList) : Settled a.code.toList where
  capital c member := by
    refine ⟨ascii c member, ?_⟩
    rw [← a.normal] at member
    obtain ⟨d, _, rfl⟩ := List.mem_map.mp member
    exact toUpper_toUpper d
  trimmed := by
    rw [← a.normal, normalize, trimChars_map isBlank_toUpper, trimChars_trimChars]

theorem Asset.code_of_settled {code : String} (settled : Settled code.toList) :
    (Asset.of code).code = code := by
  rw [← String.toList_inj, Asset.of, String.toList_ofList, normalize, settled.trimmed]
  calc code.toList.map Char.toUpper
      = code.toList.map id := List.map_congr_left fun c member => (settled.capital c member).upper
    _ = code.toList := List.map_id _

namespace Codes

theorem toList_canonical (text : String) :
    (canonical text).toList = (trimChars text.toList).flatMap upperChar := by
  rw [canonical, upper, trim, String.toList_ofList, String.toList_ofList]

theorem canonical_of_settled {text : String} (settled : Settled text.toList) :
    canonical text = text := by
  rw [← String.toList_inj, toList_canonical, settled.upper_trim]

theorem canonical_lower {text : String} (settled : Settled text.toList) :
    canonical (lower text) = text := by
  rw [← String.toList_inj, toList_canonical, toList_lower settled.ascii, settled.upper_lower]

section Aliases

variable {c : Codes} {a : Asset} {code text : String}

theorem code_of_mem (distinct : (c.aliases.map (·.2)).Nodup) (member : (code, a) ∈ c.aliases) :
    c.code a = code := by
  rw [Codes.code, find?_of_mem_entries distinct member]
  rfl

theorem code_of_unlisted (unlisted : ∀ entry ∈ c.aliases, entry.2 ≠ a) : c.code a = a.code := by
  have missed : c.aliases.find? (·.2 == a) = none :=
    List.find?_eq_none.mpr fun entry member => by simpa using unlisted entry member
  rw [Codes.code, missed]
  rfl

theorem asset_of_mem (distinct : (c.aliases.map (·.1)).Nodup)
    (member : (canonical text, a) ∈ c.aliases) : c.asset text = a := by
  rw [asset, lookup_of_mem_entries distinct member]
  rfl

theorem asset_of_unlisted (unlisted : ∀ entry ∈ c.aliases, entry.1 ≠ canonical text) :
    c.asset text = .of (canonical text) := by
  have missed : c.aliases.lookup (canonical text) = none :=
    List.lookup_eq_none_iff.mpr fun entry member => by
      simpa using (unlisted entry member).symm
  rw [asset, missed]
  rfl

end Aliases

/-- What makes codes and assets of an alias table stand for each other. -/
structure OneToOne (c : Codes) : Prop where
  ascii : ∀ entry ∈ c.aliases, Ascii entry.1.toList
  filled : ∀ entry ∈ c.aliases, entry.1 ≠ ""
  codes : (c.aliases.map (·.1)).Nodup
  assets : (c.aliases.map (·.2)).Nodup

/-- Whether an asset can be told by its code: the table lists it, or its own code is in ASCII and
is not that of another asset in the table. -/
def Tells (c : Codes) (a : Asset) : Prop :=
  a.isEmpty = false ∧
    ((∃ entry ∈ c.aliases, entry.2 = a) ∨
      Ascii a.code.toList ∧ ∀ entry ∈ c.aliases, entry.1 ≠ a.code)

instance (c : Codes) (a : Asset) : Decidable (c.Tells a) :=
  inferInstanceAs (Decidable (a.isEmpty = false ∧
    ((∃ entry ∈ c.aliases, entry.2 = a) ∨
      Ascii a.code.toList ∧ ∀ entry ∈ c.aliases, entry.1 ≠ a.code)))

def Shadows (c : Codes) (code : String) : Prop :=
  (∃ entry ∈ c.aliases, entry.2.code = code) ∧ ∀ entry ∈ c.aliases, entry.1 ≠ code

instance (c : Codes) (code : String) : Decidable (c.Shadows code) :=
  inferInstanceAs (Decidable ((∃ entry ∈ c.aliases, entry.2.code = code) ∧
    ∀ entry ∈ c.aliases, entry.1 ≠ code))

section Standing

variable {e : ExchangeDescription} {a : Asset} {code : String}

theorem settled_of_mem {entry : String × Asset} (member : entry ∈ (Codes.of e).aliases)
    (ascii : Ascii entry.1.toList) : Settled entry.1.toList := by
  obtain ⟨named, _, rfl⟩ := List.mem_map.mp member
  simp only [toList_canonical] at ascii ⊢
  exact settled_upper ascii

theorem Tells.read_back (told : (Codes.of e).Tells a) (sound : (Codes.of e).OneToOne) :
    Settled ((Codes.of e).code a).toList ∧ (Codes.of e).code a ≠ "" ∧
      (Codes.of e).asset ((Codes.of e).code a) = a := by
  by_cases listed : ∃ entry ∈ (Codes.of e).aliases, entry.2 = a
  · obtain ⟨⟨code, a⟩, member, rfl⟩ := listed
    have settled := settled_of_mem member (sound.ascii _ member)
    rw [code_of_mem sound.assets member]
    refine ⟨settled, sound.filled _ member, asset_of_mem sound.codes ?_⟩
    rwa [canonical_of_settled settled]
  · obtain ⟨filled, ⟨ascii, apart⟩⟩ := told.imp_right fun either => either.resolve_left listed
    have settled := Asset.settled ascii
    have self := canonical_of_settled settled
    rw [code_of_unlisted fun entry member same => listed ⟨entry, member, same⟩]
    refine ⟨settled, fun empty => ?_, ?_⟩
    · rw [Asset.isEmpty, empty] at filled
      cases filled
    · rw [asset_of_unlisted (self.symm ▸ apart), self, Asset.of_code]

theorem code_asset {c : Codes} (distinct : (c.aliases.map (·.2)).Nodup)
    (settled : Settled code.toList) (clear : ¬ c.Shadows code) : c.code (c.asset code) = code := by
  have self := canonical_of_settled settled
  cases found : c.aliases.lookup code with
  | some a =>
    obtain ⟨before, after, whole, _⟩ := List.lookup_eq_some_iff.mp found
    have member : (code, a) ∈ c.aliases := whole ▸ List.mem_append_right _ List.mem_cons_self
    rw [asset, self, found]
    exact code_of_mem distinct member
  | none =>
    have unlisted : ∀ entry ∈ c.aliases, entry.1 ≠ code := fun entry member same => by
      have other := List.lookup_eq_none_iff.mp found entry member
      simp [same] at other
    rw [asset_of_unlisted (self.symm ▸ unlisted), self, code_of_unlisted,
      Asset.code_of_settled settled]
    intro entry member same
    refine clear ⟨⟨entry, member, ?_⟩, unlisted⟩
    rw [same, Asset.code_of_settled settled]

end Standing

theorem pair?_eq_some_iff {c : Codes} {base quote : String} {p : AssetPair} :
    c.pair? base quote = some p ↔ (p = ⟨c.asset base, c.asset quote⟩ ∧
      p.asset1.isEmpty = false ∧ p.asset2.isEmpty = false) := by
  rw [pair?]
  split
  · next empty =>
    constructor
    · intro read
      cases read
    · rintro ⟨rfl, first, second⟩
      simp [first, second] at empty
  · next filled =>
    constructor
    · intro read
      cases read
      exact ⟨rfl, by simpa using filled⟩
    · rintro ⟨rfl, _⟩
      rfl

def between (c : Codes) : String := (c.separator.map Char.toString).getD ""

def spelled (c : Codes) (p : AssetPair) : String := c.code p.asset1 ++ c.between ++ c.code p.asset2

def parts? (c : Codes) (text : String) : Option (String × String) :=
  match c.separator with
  | some separator => splitAt? separator text
  | none => c.quoteCodes.findSome? fun quote => (baseBefore? text quote).map (·, quote)

section Tickers

variable {c : Codes} {p : AssetPair} {text base quote : String}

theorem ticker_eq : c.ticker p = if c.lowercase then lower (c.spelled p) else c.spelled p := rfl

theorem parseTicker_eq_some_iff : c.parseTicker text = some p ↔
    ∃ base quote, c.parts? (canonical text) = some (base, quote) ∧
      c.pair? base quote = some p := by
  have bound : c.parseTicker text =
      (c.parts? (canonical text)).bind fun parts => c.pair? parts.1 parts.2 := by
    simp only [parseTicker, parts?]
    cases c.separator <;> rfl
  rw [bound, Option.bind_eq_some_iff, Prod.exists]

theorem canonical_ticker (settled : Settled (c.spelled p).toList) :
    canonical (c.ticker p) = c.spelled p := by
  rw [ticker_eq]
  split
  · exact canonical_lower settled
  · exact canonical_of_settled settled

theorem settled_spelled (base : Settled (c.code p.asset1).toList)
    (quote : Settled (c.code p.asset2).toList) (front : c.code p.asset1 ≠ "")
    (back : c.code p.asset2 ≠ "") (between : ∀ s ∈ c.between.toList, Capital s) :
    Settled (c.spelled p).toList := by
  rw [spelled, String.toList_append, String.toList_append]
  refine ⟨fun s member => ?_, ?_⟩
  · rcases List.mem_append.mp member with first | last
    · rcases List.mem_append.mp first with first | middle
      · exact base.capital s first
      · exact between s middle
    · exact quote.capital s last
  · apply trimChars_append base.trimmed quote.trimmed
    · simpa using front
    · simpa using back

theorem append_of_parts? (split : c.parts? text = some (base, quote)) :
    text = base ++ c.between ++ quote := by
  rw [← String.toList_inj, String.toList_append, String.toList_append]
  simp only [parts?] at split
  split at split
  · rename_i separator separated
    rw [(splitAt?_eq_some_iff.mp split).1, between, separated]
    simp
  · rename_i joined
    obtain ⟨_, _, hit⟩ := List.exists_of_findSome?_eq_some split
    obtain ⟨_, before, same⟩ := Option.map_eq_some_iff.mp hit
    cases same
    rw [(baseBefore?_eq_some_iff.mp before).1, between, joined]
    simp

theorem parts?_of_separated {separator : Char} (separated : c.separator = some separator)
    (apart : separator ∉ (c.code p.asset1).toList) :
    c.parts? (c.spelled p) = some (c.code p.asset1, c.code p.asset2) := by
  simp only [parts?, separated, splitAt?_eq_some_iff]
  refine ⟨?_, apart⟩
  simp [spelled, between, separated]

theorem parts?_of_joined (sorted : c.quoteCodes.Pairwise fun a b => b.utf8ByteSize ≤ a.utf8ByteSize)
    (joined : c.separator = none) (listed : c.code p.asset2 ∈ c.quoteCodes)
    (front : c.code p.asset1 ≠ "")
    (longest : ∀ q ∈ c.quoteCodes, (c.code p.asset2).length < q.length →
      q.toList <:+ (c.spelled p).toList → q = c.spelled p) :
    c.parts? (c.spelled p) = some (c.code p.asset1, c.code p.asset2) := by
  have whole : c.spelled p = c.code p.asset1 ++ c.code p.asset2 := by
    simp [spelled, between, joined]
  simp only [parts?, joined, findSome?_baseBefore?_iff sorted]
  refine ⟨listed, baseBefore?_eq_some_iff.mpr ⟨whole, front⟩, fun q member splits => ?_⟩
  obtain ⟨base, split⟩ := Option.isSome_iff_exists.mp splits
  obtain ⟨ends, shorter⟩ := baseBefore?_eq_some split
  have short : q.toList.length ≤ (c.code p.asset2).toList.length := by
    by_contra long
    rw [String.length_toList, String.length_toList, not_le] at long
    rw [longest q member long ends] at shorter
    exact absurd shorter (lt_irrefl _)
  apply utf8ByteSize_le_of_isSuffix
  apply List.suffix_of_suffix_length_le ends ?_ short
  rw [whole, String.toList_append]
  exact List.suffix_append _ _

theorem ticker_of_parseTicker (distinct : (c.aliases.map (·.2)).Nodup)
    (plain : c.lowercase = false) (solid : Solid text.toList)
    (clear : ∀ base quote, c.parts? text = some (base, quote) →
      ¬ c.Shadows base ∧ ¬ c.Shadows quote)
    (read : c.parseTicker text = some p) : c.ticker p = text := by
  have self : canonical text = text := canonical_of_settled solid.settled
  obtain ⟨base, quote, split, read⟩ := parseTicker_eq_some_iff.mp read
  rw [self] at split
  obtain ⟨rfl, _⟩ := pair?_eq_some_iff.mp read
  have whole := append_of_parts? split
  have parts : text.toList = base.toList ++ c.between.toList ++ quote.toList := by
    rw [whole, String.toList_append, String.toList_append]
  have first : Solid base.toList := solid.mono (by simp [parts])
  have second : Solid quote.toList := solid.mono (by simp [parts])
  obtain ⟨clearBase, clearQuote⟩ := clear base quote split
  rw [ticker_eq, plain, spelled, code_asset distinct first.settled clearBase,
    code_asset distinct second.settled clearQuote]
  exact whole.symm

end Tickers

section Codec

variable {e : ExchangeDescription} {p : AssetPair}

theorem settled_ticker (sound : (Codes.of e).OneToOne) (first : (Codes.of e).Tells p.asset1)
    (second : (Codes.of e).Tells p.asset2)
    (between : ∀ s ∈ (Codes.of e).between.toList, Capital s) :
    Settled ((Codes.of e).spelled p).toList := by
  obtain ⟨base, front, _⟩ := first.read_back sound
  obtain ⟨quote, back, _⟩ := second.read_back sound
  exact settled_spelled base quote front back between

theorem parseTicker_ticker (sound : (Codes.of e).OneToOne) (first : (Codes.of e).Tells p.asset1)
    (second : (Codes.of e).Tells p.asset2)
    (between : ∀ s ∈ (Codes.of e).between.toList, Capital s)
    (split : (Codes.of e).parts? ((Codes.of e).spelled p) =
      some ((Codes.of e).code p.asset1, (Codes.of e).code p.asset2)) :
    (Codes.of e).parseTicker ((Codes.of e).ticker p) = some p := by
  rw [← canonical_ticker (settled_ticker sound first second between)] at split
  refine parseTicker_eq_some_iff.mpr ⟨_, _, split, ?_⟩
  rw [pair?_eq_some_iff, (first.read_back sound).2.2, (second.read_back sound).2.2]
  exact ⟨rfl, first.1, second.1⟩

theorem parseTicker_congr (joined : e.pairSeparator = none) {quotes : List String}
    (same : ∀ q, q ∈ quotes ↔ q ∈ e.quoteAssets) (text : String) :
    (Codes.of { e with quoteAssets := quotes }).parseTicker text =
      (Codes.of e).parseTicker text := by
  have separator : (Codes.of e).separator = none := joined
  have separator' : (Codes.of { e with quoteAssets := quotes }).separator = none := joined
  have parts : (Codes.of { e with quoteAssets := quotes }).parts? (canonical text) =
      (Codes.of e).parts? (canonical text) := by
    apply Option.ext
    rintro ⟨base, quote⟩
    simp only [parts?, separator, separator', findSome?_baseBefore?_iff (quoteCodes_sorted _),
      mem_quoteCodes, same]
  apply Option.ext
  intro p
  rw [parseTicker_eq_some_iff, parseTicker_eq_some_iff, parts]
  rfl

end Codec

/-- Tickers and pairs turn into each other. Lower case does not matter to the reading of tickers,
since they are split in upper case. -/
structure Inverse (c : Codes) : Prop where
  separated : ∀ separator, c.separator = some separator → Capital separator →
    ∀ p : AssetPair, c.Tells p.asset1 → c.Tells p.asset2 →
      separator ∉ (c.code p.asset1).toList → c.parseTicker (c.ticker p) = some p
  joined : c.separator = none → ∀ p : AssetPair, c.Tells p.asset1 → c.Tells p.asset2 →
    c.code p.asset2 ∈ c.quoteCodes →
      (∀ q ∈ c.quoteCodes, (c.code p.asset2).length < q.length →
        q.toList <:+ (canonical (c.ticker p)).toList → q = canonical (c.ticker p)) →
      c.parseTicker (c.ticker p) = some p
  rendered : c.lowercase = false → ∀ text : String, Solid text.toList →
    (∀ base quote, c.parts? text = some (base, quote) → ¬ c.Shadows base ∧ ¬ c.Shadows quote) →
      ∀ p, c.parseTicker text = some p → c.ticker p = text

/-- Where the alias table is one to one, pairs are read back from their tickers and tickers written
again for their pairs; and without a separator it does not matter how the quote codes are listed. -/
theorem tickers_are_read_back (e : ExchangeDescription) (sound : (Codes.of e).OneToOne) :
    (Codes.of e).Inverse ∧
      (e.pairSeparator = none → ∀ quotes : List String, (∀ q, q ∈ quotes ↔ q ∈ e.quoteAssets) →
        ∀ text, (Codes.of { e with quoteAssets := quotes }).parseTicker text =
          (Codes.of e).parseTicker text) := by
  refine ⟨⟨?separated, ?joined, ?rendered⟩, fun joined _ same => parseTicker_congr joined same⟩
  case separated =>
    intro separator separated capital p first second apart
    apply parseTicker_ticker sound first second ?_ (parts?_of_separated separated apart)
    intro s member
    simp only [between, separated, Option.map_some, Option.getD_some] at member
    have same : s = separator := by simpa using member
    exact same ▸ capital
  case joined =>
    intro joined p first second listed longest
    have between : ∀ s ∈ (Codes.of e).between.toList, Capital s := by
      simp [between, joined]
    rw [canonical_ticker (settled_ticker sound first second between)] at longest
    apply parseTicker_ticker sound first second between
    exact parts?_of_joined (quoteCodes_sorted e) joined listed (first.read_back sound).2.1 longest
  case rendered =>
    intro plain text solid clear p read
    exact ticker_of_parseTicker sound.assets plain solid clear read

def coinExchange : ExchangeDescription where
  id := "coins"
  network := "Coins"
  baseUrl := "http://coins"
  quoteAssets := ["usd", "xbt", "zusd"]
  assetAliases := [("xbt", "btc"), ("xdg", "doge"), ("zusd", "usd")]
  lowercaseTickers := true

def underscoredExchange : ExchangeDescription :=
  { coinExchange with pairSeparator := some '_', lowercaseTickers := false }

theorem coinExchange_oneToOne : (Codes.of coinExchange).OneToOne where
  ascii := by decide +kernel
  filled := by decide +kernel
  codes := by decide +kernel
  assets := by decide +kernel

/-- `xdgzusd` is doge in dollars, although it ends in another quote code too. -/
theorem doge_tickers_are_read_back :
    (Codes.of coinExchange).OneToOne ∧
      (Codes.of coinExchange).ticker (.of "DOGE" "USD") = "xdgzusd" ∧
      (Codes.of coinExchange).parseTicker "xdgzusd" = some (.of "DOGE" "USD") ∧
      (Codes.of { coinExchange with quoteAssets := ["zusd", "usd", "zusd", "xbt"] }).parseTicker
        "xdgzusd" = some (.of "DOGE" "USD") ∧
      (Codes.of underscoredExchange).OneToOne ∧
      (Codes.of underscoredExchange).parseTicker "XDG_ZUSD" = some (.of "DOGE" "USD") ∧
      (Codes.of underscoredExchange).ticker (.of "ETH" "BTC") = "ETH_XBT" := by
  have sound := coinExchange_oneToOne
  have sound' : (Codes.of underscoredExchange).OneToOne :=
    ⟨sound.ascii, sound.filled, sound.codes, sound.assets⟩
  have doge : (Codes.of coinExchange).Tells (.of "DOGE") := by decide +kernel
  have dollars : (Codes.of coinExchange).Tells (.of "USD") := by decide +kernel
  have written : (Codes.of coinExchange).ticker (.of "DOGE" "USD") = "xdgzusd" := by
    decide +kernel
  have written' : (Codes.of underscoredExchange).ticker (.of "DOGE" "USD") = "XDG_ZUSD" := by
    decide +kernel
  obtain ⟨inverse, unordered⟩ := tickers_are_read_back coinExchange sound
  obtain ⟨inverse', _⟩ := tickers_are_read_back underscoredExchange sound'
  have read : (Codes.of coinExchange).parseTicker "xdgzusd" = some (.of "DOGE" "USD") := by
    rw [← written]
    apply inverse.joined rfl _ doge dollars
    · exact mem_quoteCodes.mpr ⟨"zusd", by decide +kernel, by decide +kernel⟩
    · have longest : ∀ raw ∈ coinExchange.quoteAssets,
          ¬ ((Codes.of coinExchange).code (.of "USD")).length < (canonical raw).length := by
        decide +kernel
      intro q member longer _
      obtain ⟨raw, listed, rfl⟩ := mem_quoteCodes.mp member
      exact absurd longer (longest raw listed)
  have listed : ∀ q, q ∈ ["zusd", "usd", "zusd", "xbt"] ↔ q ∈ coinExchange.quoteAssets := by
    intro q
    simp only [coinExchange, List.mem_cons]
    grind
  refine ⟨sound, written, read, (unordered rfl _ listed _).trans read, sound', ?_, ?_⟩
  · rw [← written']
    apply inverse'.separated '_' rfl ⟨by decide, by decide⟩ (.of "DOGE" "USD") doge dollars
    decide +kernel
  · have split : (Codes.of underscoredExchange).parts? "ETH_XBT" = some ("ETH", "XBT") := by
      decide +kernel
    apply inverse'.rendered rfl "ETH_XBT" (by decide +kernel)
    · intro base quote found
      rw [split] at found
      cases found
      decide +kernel
    · decide +kernel

end Codes

end PriceDesk
