import Mathlib.Data.List.TakeWhile
import PriceDesk.Market.Asset

namespace PriceDesk

namespace Text

variable {cs : List Char}

def Blank (cs : List Char) : Prop := ∀ c ∈ cs, isBlank c = true

theorem blank_dropWhile_iff : Blank (cs.dropWhile isBlank) ↔ Blank cs := by
  constructor
  · intro rest c member
    rw [← List.takeWhile_append_dropWhile (p := isBlank) (l := cs)] at member
    rcases List.mem_append.mp member with front | back
    · exact List.mem_takeWhile_imp front
    · exact rest c back
  · intro blank c member
    exact blank c ((List.dropWhile_suffix isBlank).mem member)

theorem blank_reverse_iff : Blank cs.reverse ↔ Blank cs := by
  simp only [Blank, List.mem_reverse]

theorem trimChars_eq_nil_iff : trimChars cs = [] ↔ Blank cs := by
  rw [trimChars, List.reverse_eq_nil_iff]
  constructor
  · intro nothing
    rw [← blank_dropWhile_iff, ← blank_reverse_iff, ← blank_dropWhile_iff, nothing]
    exact List.forall_mem_nil _
  · intro blank
    exact List.dropWhile_eq_nil_iff.mpr (blank_reverse_iff.mpr (blank_dropWhile_iff.mpr blank))

theorem mem_of_mem_trimChars {c : Char} (member : c ∈ trimChars cs) : c ∈ cs := by
  rw [trimChars, List.mem_reverse] at member
  have inside := (List.dropWhile_suffix isBlank).mem member
  rw [List.mem_reverse] at inside
  exact (List.dropWhile_suffix isBlank).mem inside

end Text

open Text

namespace Asset

variable {c : Char} {cs : List Char} {a : Asset}

theorem toList_of (cs : List Char) : (of (String.ofList cs)).code.toList = normalize cs := by
  rw [of, String.toList_ofList, String.toList_ofList]

theorem normalize_eq_nil_iff : normalize cs = [] ↔ Blank cs := by
  rw [normalize, List.map_eq_nil_iff, trimChars_eq_nil_iff]

theorem mem_of_mem_normalize (small : c.toNat < 65 ∨ 90 < c.toNat) (member : c ∈ normalize cs) :
    c ∈ cs := by
  obtain ⟨d, inside, rfl⟩ := List.mem_map.mp member
  rcases toUpper_cases d with ⟨low, high, up⟩ | ⟨_, same⟩
  · omega
  · rw [same]
    exact mem_of_mem_trimChars inside

theorem blank_code_iff (a : Asset) : Blank a.code.toList ↔ a.code = "" := by
  rw [← normalize_eq_nil_iff, a.normal, String.toList_eq_nil_iff]

end Asset

namespace AssetPair

variable {c d : Char} {cs a b : List Char} {s : String} {p : AssetPair} {e : MarketError}

/-- Which of the separators counts in a text: the first one that it holds. -/
inductive Separates (cs : List Char) : Char → Prop where
  | underscore (there : '_' ∈ cs) : Separates cs '_'
  | slash (without : '_' ∉ cs) (there : '/' ∈ cs) : Separates cs '/'
  | hyphen (without : '_' ∉ cs) (without' : '/' ∉ cs) (there : '-' ∈ cs) : Separates cs '-'

/-- Whether a separator stands in a text once, between two parts that are not blank. -/
structure Halves (cs : List Char) (c : Char) (a b : List Char) : Prop where
  whole : cs = a ++ c :: b
  once : cs.count c = 1
  left : ¬ Blank a
  right : ¬ Blank b

theorem length_splitOn (c : Char) (cs : List Char) :
    (cs.splitOn c).length = cs.count c + 1 := by
  induction cs with
  | nil => rfl
  | cons d cs ih =>
    rw [List.splitOn_cons_eq_if_modifyHead, List.count_cons]
    cases d == c with
    | true => rw [if_pos rfl, if_pos rfl, List.length_cons, ih]
    | false =>
      rw [if_neg Bool.false_ne_true, if_neg Bool.false_ne_true, List.length_modifyHead, ih]

theorem not_mem_of_count (once : (a ++ c :: b).count c = 1) : c ∉ a ∧ c ∉ b := by
  rw [List.count_append, List.count_cons_self] at once
  exact ⟨List.count_eq_zero.mp (by omega), List.count_eq_zero.mp (by omega)⟩

theorem splitOn_eq_pair_iff :
    cs.splitOn c = [a, b] ↔ cs = a ++ c :: b ∧ cs.count c = 1 := by
  constructor
  · intro parts
    have once : cs.count c = 1 := by
      have length := length_splitOn c cs
      rw [parts] at length
      exact (Nat.succ.inj length).symm
    have member : c ∈ cs := List.count_pos_iff.mp (by omega)
    obtain ⟨front, back, rfl⟩ := List.append_of_mem member
    obtain ⟨first, last⟩ := not_mem_of_count once
    rw [List.splitOn_append_cons_self_of_not_mem first, List.splitOn_eq_singleton last] at parts
    cases parts
    exact ⟨rfl, once⟩
  · rintro ⟨rfl, once⟩
    obtain ⟨first, last⟩ := not_mem_of_count once
    rw [List.splitOn_append_cons_self_of_not_mem first, List.splitOn_eq_singleton last]

theorem ofTicker?_eq_ok_iff : ofTicker? s c = .ok p ↔
    ∃ a b, Halves s.toList c a b ∧ p = of (String.ofList a) (String.ofList b) := by
  constructor
  · intro reads
    unfold ofTicker? at reads
    split at reads
    · rename_i a b parts
      split at reads
      · cases reads
      · rename_i filled
        cases reads
        rw [Bool.or_eq_true, not_or, List.isEmpty_iff, List.isEmpty_iff, trimChars_eq_nil_iff,
          trimChars_eq_nil_iff] at filled
        obtain ⟨whole, once⟩ := splitOn_eq_pair_iff.mp parts
        exact ⟨a, b, ⟨whole, once, filled.1, filled.2⟩, rfl⟩
    · cases reads
  · rintro ⟨a, b, halves, rfl⟩
    have filled : ¬ ((trimChars a).isEmpty || (trimChars b).isEmpty) = true := by
      rw [Bool.or_eq_true, not_or, List.isEmpty_iff, List.isEmpty_iff, trimChars_eq_nil_iff,
        trimChars_eq_nil_iff]
      exact ⟨halves.left, halves.right⟩
    rw [ofTicker?, splitOn_eq_pair_iff.mpr ⟨halves.whole, halves.once⟩]
    exact if_neg filled

theorem ofTicker?_eq_error (fails : ofTicker? s c = .error e) : e = .invalidPair s := by
  unfold ofTicker? at fails
  split at fails
  · split at fails
    · exact (Except.error.inj fails).symm
    · cases fails
  · exact (Except.error.inj fails).symm

theorem find?_separators : separators.find? (cs.contains ·) = some c ↔ Separates cs c := by
  constructor
  · intro found
    by_cases underscore : '_' ∈ cs
    · simp only [separators, List.find?_cons, List.contains_iff_mem.mpr underscore] at found
      cases found
      exact .underscore underscore
    by_cases slash : '/' ∈ cs
    · simp [separators, underscore, slash] at found
      cases found
      exact .slash underscore slash
    by_cases hyphen : '-' ∈ cs
    · simp [separators, underscore, slash, hyphen] at found
      cases found
      exact .hyphen underscore slash hyphen
    · simp [separators, underscore, slash, hyphen] at found
  · intro separates
    cases separates with
    | underscore there => simp [separators, there]
    | slash without there => simp [separators, without, there]
    | hyphen without without' there => simp [separators, without, without', there]

theorem ofString?_of_separates (separates : Separates s.toList c) :
    ofString? s = ofTicker? s c := by
  rw [ofString?, find?_separators.mpr separates]

theorem ofString?_eq_ok_iff : ofString? s = .ok p ↔
    ∃ c a b, Separates s.toList c ∧ Halves s.toList c a b ∧
      p = of (String.ofList a) (String.ofList b) := by
  constructor
  · intro reads
    unfold ofString? at reads
    split at reads
    · rename_i c found
      obtain ⟨a, b, halves, same⟩ := ofTicker?_eq_ok_iff.mp reads
      exact ⟨c, a, b, find?_separators.mp found, halves, same⟩
    · cases reads
  · rintro ⟨c, a, b, separates, halves, same⟩
    rw [ofString?_of_separates separates]
    exact ofTicker?_eq_ok_iff.mpr ⟨a, b, halves, same⟩

theorem ofString?_eq_error (fails : ofString? s = .error e) : e = .invalidPair s := by
  unfold ofString? at fails
  split at fails
  · exact ofTicker?_eq_error fails
  · exact (Except.error.inj fails).symm

structure Spelled (p : AssetPair) (c : Char) : Prop where
  base : p.asset1.code ≠ ""
  quote : p.asset2.code ≠ ""
  outside : c ∉ p.asset1.code.toList
  outside' : c ∉ p.asset2.code.toList

theorem toList_toTicker (p : AssetPair) (c : Char) :
    (p.toTicker (some c)).toList = p.asset1.code.toList ++ c :: p.asset2.code.toList := by
  simp [toTicker]

theorem ofTicker?_toTicker_iff : ofTicker? (p.toTicker (some c)) c = .ok p ↔ p.Spelled c := by
  rw [ofTicker?_eq_ok_iff, toList_toTicker]
  constructor
  · rintro ⟨a, b, halves, _⟩
    obtain ⟨outside, outside'⟩ := not_mem_of_count halves.once
    have parts := splitOn_eq_pair_iff.mpr ⟨halves.whole, halves.once⟩
    rw [List.splitOn_append_cons_self_of_not_mem outside, List.splitOn_eq_singleton outside'] at parts
    cases parts
    have left := halves.left
    have right := halves.right
    rw [Asset.blank_code_iff] at left right
    exact ⟨left, right, outside, outside'⟩
  · intro spelled
    refine ⟨p.asset1.code.toList, p.asset2.code.toList, ⟨rfl, ?_, ?_, ?_⟩, ?_⟩
    · rw [List.count_append, List.count_cons_self, List.count_eq_zero.mpr spelled.outside,
        List.count_eq_zero.mpr spelled.outside']
    · rw [Asset.blank_code_iff]
      exact spelled.base
    · rw [Asset.blank_code_iff]
      exact spelled.quote
    · rw [of, String.ofList_toList, String.ofList_toList, Asset.of_code, Asset.of_code]

theorem ofString?_render (p : AssetPair) : ofString? p.render = ofTicker? p.render '_' := by
  apply ofString?_of_separates
  apply Separates.underscore
  rw [render, toList_toTicker]
  exact List.mem_append_right _ List.mem_cons_self

theorem Separates.not_mem (separates : Separates cs c) (halves : Halves cs c a b) :
    '_' ∉ a ∧ '_' ∉ b := by
  have parts : ('_' ∉ cs) → '_' ∉ a ∧ '_' ∉ b := by
    rw [halves.whole, List.mem_append, List.mem_cons, not_or, not_or]
    exact fun absent => ⟨absent.1, absent.2.2⟩
  cases separates with
  | underscore there => exact not_mem_of_count (halves.whole ▸ halves.once)
  | slash without there => exact parts without
  | hyphen without without' there => exact parts without

theorem spelled_of_halves (separates : Separates cs c) (halves : Halves cs c a b) :
    (of (String.ofList a) (String.ofList b)).Spelled '_' := by
  have code : ∀ part, ¬ Blank part → '_' ∉ part →
      (Asset.of (String.ofList part)).code ≠ "" ∧
        '_' ∉ (Asset.of (String.ofList part)).code.toList := by
    intro part filled absent
    rw [Ne, ← String.toList_eq_nil_iff, Asset.toList_of, Asset.normalize_eq_nil_iff]
    exact ⟨filled, fun member => absent (Asset.mem_of_mem_normalize (by decide) member)⟩
  obtain ⟨outside, outside'⟩ := separates.not_mem halves
  have base := code a halves.left outside
  have quote := code b halves.right outside'
  exact ⟨base.1, quote.1, base.2, quote.2⟩

/-- Which texts hold which pair, and which pairs are read back from their text or ticker. -/
theorem pair_text_reads_back :
    (∀ s p, ofString? s = .ok p ↔ ∃ c a b, Separates s.toList c ∧ Halves s.toList c a b ∧
      p = of (String.ofList a) (String.ofList b)) ∧
    (∀ s e, ofString? s = .error e → e = .invalidPair s) ∧
    (∀ s p, ofString? s = .ok p → ofString? p.render = .ok p) ∧
    (∀ p : AssetPair, ofString? p.render = .ok p ↔ p.Spelled '_') ∧
    ∀ (p : AssetPair) c, ofTicker? (p.toTicker (some c)) c = .ok p ↔ p.Spelled c := by
  refine ⟨fun s p => ofString?_eq_ok_iff, fun s e => ofString?_eq_error, ?_, ?_,
    fun p c => ofTicker?_toTicker_iff⟩
  · intro s p reads
    obtain ⟨c, a, b, separates, halves, rfl⟩ := ofString?_eq_ok_iff.mp reads
    rw [ofString?_render]
    exact ofTicker?_toTicker_iff.mpr (spelled_of_halves separates halves)
  · intro p
    rw [ofString?_render]
    exact ofTicker?_toTicker_iff

/-- A code may hold the separators that do not count. -/
theorem hyphened_text_reads_back : ∃ p, ofString? " btc/us-d" = .ok p ∧ p.render = "BTC_US-D" ∧
    ofString? p.render = .ok p := by
  have reads : ofString? " btc/us-d" = .ok (of "BTC" "US-D") := by decide
  exact ⟨_, reads, by decide, pair_text_reads_back.2.2.1 _ _ reads⟩

end AssetPair

end PriceDesk
