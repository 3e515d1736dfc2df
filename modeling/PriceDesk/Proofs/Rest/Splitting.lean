import Mathlib.Data.List.TakeWhile
import PriceDesk.Rest.Codes

namespace PriceDesk

namespace Text

structure Plain (letter : Char) : Prop where
  solid : isBlank letter = false
  upper : upperChar letter = [letter]
  capital : letter.toUpper = letter

theorem plain_a : Plain 'A' := ⟨by decide, by decide, by decide⟩

theorem plain_b : Plain 'B' := ⟨by decide, by decide, by decide⟩

theorem exists_plain (separator : Char) : ∃ letter, Plain letter ∧ letter ≠ separator := by
  by_cases same : separator = 'A'
  · exact ⟨'B', plain_b, by rw [same]; decide⟩
  · exact ⟨'A', plain_a, fun clash => same clash.symm⟩

theorem trimChars_cons {letter : Char} (plain : Plain letter) (cs : List Char) :
    trimChars (letter :: trimChars cs) = letter :: trimChars cs := by
  refine trimChars_eq_self ?_ fun c last => ?_
  · intro c first
    cases first
    exact plain.solid
  · rw [List.reverse_cons, trimChars, List.reverse_reverse, List.head?_append] at last
    cases tail : ((cs.dropWhile isBlank).reverse.dropWhile isBlank).head? with
    | none =>
      rw [tail] at last
      cases last
      exact plain.solid
    | some d =>
      rw [tail] at last
      cases last
      have solid := List.head?_dropWhile_not isBlank (cs.dropWhile isBlank).reverse
      rwa [tail] at solid

theorem count_dropWhile_isBlank {letter : Char} (plain : Plain letter) (cs : List Char) :
    (cs.dropWhile isBlank).count letter = cs.count letter := by
  induction cs with
  | nil => rfl
  | cons c cs ih =>
    by_cases blank : isBlank c = true
    · have other : c ≠ letter := by
        rintro rfl
        simp [plain.solid] at blank
      rw [List.dropWhile_cons, if_pos blank, ih, List.count_cons_of_ne other]
    · rw [List.dropWhile_cons, if_neg blank]

theorem count_trimChars {letter : Char} (plain : Plain letter) (cs : List Char) :
    (trimChars cs).count letter = cs.count letter := by
  rw [trimChars, List.count_reverse, count_dropWhile_isBlank plain, List.count_reverse,
    count_dropWhile_isBlank plain]

theorem count_le_upper {letter : Char} (plain : Plain letter) (cs : List Char) :
    cs.count letter ≤ (cs.flatMap upperChar).count letter := by
  induction cs with
  | nil => simp
  | cons c cs ih =>
    rw [List.flatMap_cons, List.count_append]
    by_cases same : c = letter
    · subst same
      rw [plain.upper, List.count_cons_self, List.count_singleton_self]
      omega
    · rw [List.count_cons_of_ne same]
      omega

end Text

open Text

theorem Asset.isEmpty_of {letter : Char} (plain : Plain letter) {code : String}
    (mem : letter ∈ code.toList) : (Asset.of code).isEmpty = false := by
  have trimmed : letter ∈ trimChars code.toList := by
    rw [← List.count_pos_iff, count_trimChars plain]
    exact List.count_pos_iff.mpr mem
  have kept : letter ∈ normalize code.toList := List.mem_map.mpr ⟨letter, trimmed, plain.capital⟩
  have some : normalize code.toList ≠ [] := List.ne_nil_of_mem kept
  simpa [Asset.isEmpty, Asset.of] using some

namespace Codes

def Reads (c : Codes) : Prop := ∃ text, (c.parseTicker text).isSome

theorem count_le_canonical {letter : Char} (plain : Plain letter) (text : String) :
    text.toList.count letter ≤ (canonical text).toList.count letter := by
  rw [canonical, upper, trim, String.toList_ofList, String.toList_ofList]
  calc text.toList.count letter
      = (trimChars text.toList).count letter := (count_trimChars plain _).symm
    _ ≤ _ := count_le_upper plain _

theorem exists_longer (aliases : List (String × Asset)) :
    ∃ n, 0 < n ∧ ∀ entry ∈ aliases, entry.1.length < n := by
  induction aliases with
  | nil => exact ⟨1, by omega, by simp⟩
  | cons first aliases ih =>
    obtain ⟨n, -, longer⟩ := ih
    refine ⟨max (first.1.length + 1) n, by omega, fun entry mem => ?_⟩
    rcases List.mem_cons.mp mem with rfl | behind
    · omega
    · have short := longer entry behind
      omega

theorem isEmpty_of_long {c : Codes} {n : Nat} (positive : 0 < n)
    (longer : ∀ entry ∈ c.aliases, entry.1.length < n) {letter : Char} (plain : Plain letter)
    {code : String} (many : n ≤ code.toList.count letter) : (c.asset code).isEmpty = false := by
  have within : n ≤ (canonical code).toList.count letter :=
    many.trans (count_le_canonical plain code)
  have unknown : c.aliases.lookup (canonical code) = none := by
    rw [List.lookup_eq_none_iff]
    intro entry mem
    have short := longer entry mem
    have size : (canonical code).toList.count letter ≤ (canonical code).length := by
      rw [← String.length_toList]
      exact List.count_le_length
    rw [bne_iff_ne]
    intro same
    rw [← same] at short
    omega
  have inside : letter ∈ (canonical code).toList := List.count_pos_iff.mp (by omega)
  rw [asset, unknown]
  exact Asset.isEmpty_of plain inside

theorem isSome_pair? {c : Codes} {base quote : String} :
    (c.pair? base quote).isSome ↔
      (c.asset base).isEmpty = false ∧ (c.asset quote).isEmpty = false := by
  cases first : (c.asset base).isEmpty <;> cases second : (c.asset quote).isEmpty <;>
    simp [pair?, first, second]

theorem splitAt?_of_mem {separator : Char} {cs : List Char} (mem : separator ∈ cs) :
    splitAt? separator (String.ofList cs) =
      some (String.ofList (cs.takeWhile (· != separator)),
        String.ofList (cs.dropWhile (· != separator)).tail) := by
  simp only [splitAt?, String.toList_ofList]
  cases rest : cs.dropWhile (· != separator) with
  | nil =>
    have absent := List.dropWhile_eq_nil_iff.mp rest separator mem
    simp at absent
  | cons c quote => rfl

theorem splitAt?_eq_some_iff {separator : Char} {text base quote : String} :
    splitAt? separator text = some (base, quote) ↔
      text.toList = base.toList ++ separator :: quote.toList ∧ separator ∉ base.toList := by
  constructor
  · intro split
    simp only [splitAt?] at split
    cases rest : text.toList.dropWhile (· != separator) with
    | nil => simp [rest] at split
    | cons c behind =>
      have found : c = separator := by
        have head := List.head_dropWhile_not (· != separator) (by rw [rest]; simp)
        simpa [rest] using head
      subst found
      rw [rest] at split
      cases split
      rw [String.toList_ofList, String.toList_ofList, ← rest, List.takeWhile_append_dropWhile]
      refine ⟨rfl, fun inside => ?_⟩
      have passed := List.mem_takeWhile_imp inside
      simp at passed
  · rintro ⟨whole, absent⟩
    have passed : ∀ c ∈ base.toList, (c != separator) = true := by
      intro c member
      rw [bne_iff_ne]
      rintro rfl
      exact absent member
    simp only [splitAt?, whole, List.takeWhile_append_of_pos passed,
      List.dropWhile_append_of_pos passed]
    simp

theorem mem_of_splitAt? {separator : Char} {text : String} {parts : String × String}
    (split : splitAt? separator text = some parts) : separator ∈ text.toList := by
  rw [(splitAt?_eq_some_iff.mp split).1]
  exact List.mem_append_right _ List.mem_cons_self

theorem reads_iff_of_separator {c : Codes} {separator : Char}
    (separated : c.separator = some separator) :
    c.Reads ↔ ∃ t, separator ∈ upperChar t := by
  constructor
  · rintro ⟨text, read⟩
    simp only [parseTicker, separated] at read
    cases split : splitAt? separator (canonical text) with
    | none => simp [split] at read
    | some parts =>
      have mem := mem_of_splitAt? split
      rw [canonical, upper, String.toList_ofList, List.mem_flatMap] at mem
      obtain ⟨t, -, inside⟩ := mem
      exact ⟨t, inside⟩
  · rintro ⟨t, inside⟩
    obtain ⟨letter, plain, differs⟩ := exists_plain separator
    obtain ⟨n, positive, longer⟩ := exists_longer c.aliases
    -- On both sides of the separator stands a code too long to be an alias.
    let side := List.replicate n letter
    have upperSide : side.flatMap upperChar = side := by
      simp [side, List.flatMap_replicate, plain.upper]
    have whole : trimChars (side ++ t :: side) = side ++ t :: side := by
      obtain ⟨m, rfl⟩ : ∃ m, n = m + 1 := ⟨n - 1, by omega⟩
      refine trimChars_eq_self (fun c first => ?_) fun c last => ?_
      · have same : letter = c := by simpa [side, List.replicate_succ] using first
        rw [← same, plain.solid]
      · rw [List.reverse_append, List.reverse_cons, List.reverse_replicate,
          List.replicate_succ] at last
        have same : letter = c := by simpa using last
        rw [← same, plain.solid]
    have text : canonical (String.ofList (side ++ t :: side)) =
        String.ofList (side ++ (upperChar t ++ side)) := by
      rw [canonical, upper, trim, String.toList_ofList, String.toList_ofList, whole,
        List.flatMap_append, List.flatMap_cons, upperSide]
    refine ⟨String.ofList (side ++ t :: side), ?_⟩
    have mem : separator ∈ side ++ (upperChar t ++ side) := by simp [inside]
    have passed : ∀ d ∈ side, (d != separator) = true := by
      intro d mem
      simpa [List.eq_of_mem_replicate mem] using differs
    simp only [parseTicker, separated, text, splitAt?_of_mem mem, Option.bind_eq_bind,
      Option.bind_some, isSome_pair?]
    constructor
    · refine isEmpty_of_long positive longer plain ?_
      rw [String.toList_ofList, List.takeWhile_append_of_pos passed, List.count_append]
      simp [side]
    · refine isEmpty_of_long positive longer plain ?_
      have rest : (upperChar t).dropWhile (· != separator) ≠ [] := by
        intro none
        simpa using List.dropWhile_eq_nil_iff.mp none separator inside
      obtain ⟨d, tail, drops⟩ := List.exists_cons_of_ne_nil rest
      rw [String.toList_ofList, List.dropWhile_append_of_pos passed, List.dropWhile_append, drops]
      simp [side]

theorem baseBefore?_eq_some_iff {text quote base : String} :
    baseBefore? text quote = some base ↔ text = base ++ quote ∧ base ≠ "" := by
  constructor
  · intro split
    simp only [baseBefore?] at split
    split at split
    · rename_i proper
      simp only [Bool.and_eq_true, List.isSuffixOf_iff_suffix, decide_eq_true_eq] at proper
      obtain ⟨⟨front, whole⟩, shorter⟩ := proper
      have before : text.toList.take (text.toList.length - quote.toList.length) = front := by
        simp [← whole]
      cases split
      rw [before, ← String.toList_inj, String.toList_append, String.toList_ofList]
      refine ⟨whole.symm, fun empty => ?_⟩
      rw [← String.toList_inj, String.toList_ofList] at empty
      rw [← whole, empty] at shorter
      simp at shorter
    · cases split
  · rintro ⟨rfl, filled⟩
    simpa [baseBefore?] using filled

theorem baseBefore?_eq_some {text quote base : String}
    (found : baseBefore? text quote = some base) :
    quote.toList <:+ text.toList ∧ quote.toList.length < text.toList.length := by
  obtain ⟨rfl, filled⟩ := baseBefore?_eq_some_iff.mp found
  rw [String.toList_append]
  refine ⟨List.suffix_append _ _, ?_⟩
  simpa [Nat.pos_iff_ne_zero] using filled

theorem baseBefore?_cons (letter : Char) (quote : String) :
    baseBefore? (String.ofList (letter :: quote.toList)) quote = some (String.ofList [letter]) := by
  simp [baseBefore?]

theorem exists_append_of_isSuffix {long short : String} (ends : short.toList <:+ long.toList) :
    ∃ front, long = front ++ short := by
  obtain ⟨front, whole⟩ := ends
  refine ⟨String.ofList front, ?_⟩
  rw [← String.toList_inj, String.toList_append, String.toList_ofList, whole]

theorem utf8ByteSize_le_of_isSuffix {long short : String} (ends : short.toList <:+ long.toList) :
    short.utf8ByteSize ≤ long.utf8ByteSize := by
  obtain ⟨front, rfl⟩ := exists_append_of_isSuffix ends
  rw [String.utf8ByteSize_append]
  omega

theorem eq_of_isSuffix {long short : String} (ends : short.toList <:+ long.toList)
    (size : long.utf8ByteSize ≤ short.utf8ByteSize) : short = long := by
  obtain ⟨front, rfl⟩ := exists_append_of_isSuffix ends
  rw [String.utf8ByteSize_append] at size
  have empty : front = "" := String.utf8ByteSize_eq_zero_iff.mp (by omega)
  rw [empty, String.empty_append]

section Longest

variable {codes : List String} {text base quote : String}

theorem longest_of_findSome? (sorted : codes.Pairwise fun a b => b.utf8ByteSize ≤ a.utf8ByteSize)
    (first : codes.findSome? (fun q => (baseBefore? text q).map (·, q)) = some (base, quote)) :
    quote ∈ codes ∧ baseBefore? text quote = some base ∧
      ∀ q ∈ codes, (baseBefore? text q).isSome → q.utf8ByteSize ≤ quote.utf8ByteSize := by
  obtain ⟨before, found, after, rfl, hit, passed⟩ := List.findSome?_eq_some_iff.mp first
  obtain ⟨_, split, same⟩ := Option.map_eq_some_iff.mp hit
  cases same
  refine ⟨List.mem_append_right _ List.mem_cons_self, split, fun q member splits => ?_⟩
  rcases List.mem_append.mp member with early | late
  · rw [Option.map_eq_none_iff.mp (passed q early)] at splits
    cases splits
  · rcases List.mem_cons.mp late with rfl | behind
    · exact le_rfl
    · exact List.rel_of_pairwise_cons (List.pairwise_append.mp sorted).2.1 behind

/-- A text is split before the longest quote code in which it ends, wherever the code is listed. -/
theorem findSome?_baseBefore?_iff
    (sorted : codes.Pairwise fun a b => b.utf8ByteSize ≤ a.utf8ByteSize) :
    codes.findSome? (fun q => (baseBefore? text q).map (·, q)) = some (base, quote) ↔
      quote ∈ codes ∧ baseBefore? text quote = some base ∧
        ∀ q ∈ codes, (baseBefore? text q).isSome → q.utf8ByteSize ≤ quote.utf8ByteSize := by
  refine ⟨longest_of_findSome? sorted, fun ⟨member, split, longest⟩ => ?_⟩
  cases result : codes.findSome? fun q => (baseBefore? text q).map (·, q) with
  | none =>
    have missed := List.findSome?_eq_none_iff.mp result quote member
    rw [split] at missed
    cases missed
  | some parts =>
    obtain ⟨other, found⟩ := parts
    obtain ⟨listed, hit, above⟩ := longest_of_findSome? sorted result
    have same : found = quote := by
      have shorter := longest found listed (by rw [hit]; rfl)
      have longer := above quote member (by rw [split]; rfl)
      have ends := (baseBefore?_eq_some hit).1
      rcases List.suffix_or_suffix_of_suffix ends (baseBefore?_eq_some split).1 with inner | outer
      · exact eq_of_isSuffix inner longer
      · exact (eq_of_isSuffix outer shorter).symm
    subst same
    rw [split] at hit
    cases hit
    rfl

end Longest

theorem findSome?_quote {codes : List String}
    (sorted : codes.Pairwise fun a b => b.utf8ByteSize ≤ a.utf8ByteSize) {quote : String}
    (mem : quote ∈ codes) (letter : Char) :
    (codes.findSome? fun q =>
        (baseBefore? (String.ofList (letter :: quote.toList)) q).map (·, q)) =
      some (String.ofList [letter], quote) := by
  refine (findSome?_baseBefore?_iff sorted).mpr ⟨mem, baseBefore?_cons letter quote, ?_⟩
  intro q _ splits
  obtain ⟨base, split⟩ := Option.isSome_iff_exists.mp splits
  obtain ⟨ends, shorter⟩ := baseBefore?_eq_some split
  rw [String.toList_ofList] at ends shorter
  rcases List.suffix_cons_iff.mp ends with whole | within
  · simp [whole] at shorter
  · exact utf8ByteSize_le_of_isSuffix within

theorem mem_quoteCodes {e : ExchangeDescription} {code : String} :
    code ∈ (Codes.of e).quoteCodes ↔ ∃ q ∈ e.quoteAssets, canonical q = code := by
  simp [Codes.of]

theorem quoteCodes_sorted (e : ExchangeDescription) :
    (Codes.of e).quoteCodes.Pairwise fun a b => b.utf8ByteSize ≤ a.utf8ByteSize := by
  have sorted : (Codes.of e).quoteCodes.Pairwise fun a b =>
      decide (b.utf8ByteSize ≤ a.utf8ByteSize) = true := by
    refine List.pairwise_mergeSort (fun a b c first second => ?_) (fun a b => ?_) _
    · simp only [decide_eq_true_eq] at *
      omega
    · simp only [Bool.or_eq_true, decide_eq_true_eq]
      omega
  exact sorted.imp fun order => of_decide_eq_true order

theorem reads_iff_of_quotes {e : ExchangeDescription} (joined : e.pairSeparator = none)
    (letter : ((Codes.of e).asset "A").isEmpty = false) :
    (Codes.of e).Reads ↔
      ∃ q ∈ e.quoteAssets, ((Codes.of e).asset (canonical q)).isEmpty = false := by
  have separator : (Codes.of e).separator = none := joined
  constructor
  · rintro ⟨text, read⟩
    simp only [parseTicker, separator] at read
    cases split : (Codes.of e).quoteCodes.findSome? fun quote =>
        (baseBefore? (canonical text) quote).map (·, quote) with
    | none => simp [split] at read
    | some parts =>
      obtain ⟨quote, mem, hit⟩ := List.exists_of_findSome?_eq_some split
      obtain ⟨base, -, rfl⟩ := Option.map_eq_some_iff.mp hit
      obtain ⟨q, listed, rfl⟩ := mem_quoteCodes.mp mem
      simp only [split, Option.bind_eq_bind, Option.bind_some, isSome_pair?] at read
      exact ⟨q, listed, read.2⟩
  · rintro ⟨q, listed, means⟩
    have text : canonical (String.ofList ('A' :: trimChars q.toList)) =
        String.ofList ('A' :: (canonical q).toList) := by
      simp [canonical, upper, trim, trimChars_cons plain_a, plain_a.upper]
    have split := findSome?_quote (quoteCodes_sorted e) (mem_quoteCodes.mpr ⟨q, listed, rfl⟩) 'A'
    refine ⟨String.ofList ('A' :: trimChars q.toList), ?_⟩
    simp only [parseTicker, separator, text, split, Option.bind_eq_bind, Option.bind_some,
      isSome_pair?]
    exact ⟨letter, means⟩

end Codes

end PriceDesk
