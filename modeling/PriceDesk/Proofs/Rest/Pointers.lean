import Mathlib.Data.List.Infix
import PriceDesk.Proofs.Rest.Places
import PriceDesk.Proofs.Rest.Tickers
import PriceDesk.Rest.Adapter

namespace PriceDesk

namespace Json.Pointer

/-- A token that means itself: it has no slash, and no tilde before a 0 or a 1. -/
structure Verbatim (token : List Char) : Prop where
  whole : '/' ∉ token
  plain : ∀ digit ∈ ['0', '1'], ¬ ['~', digit] <:+: token

instance : DecidablePred Verbatim := fun token =>
  -- Otherwise the digits may be looked for among all characters.
  letI := List.decidableBAll (fun digit => ¬ ['~', digit] <:+: token) ['0', '1']
  decidable_of_iff ('/' ∉ token ∧ ∀ digit ∈ ['0', '1'], ¬ ['~', digit] <:+: token)
    ⟨fun h => ⟨h.1, h.2⟩, fun h => ⟨h.1, h.2⟩⟩

theorem Verbatim.of_forall {token : List Char} (free : ∀ c ∈ token, c ≠ '/' ∧ c ≠ '~') :
    Verbatim token where
  whole member := (free _ member).1 rfl
  plain _ _ inside := (free '~' (inside.subset List.mem_cons_self)).2 rfl

def unescape (digit meaning : Char) : List Char → List Char
  | [] => []
  | [c] => [c]
  | c :: d :: rest =>
    if c = '~' ∧ d = digit then meaning :: unescape digit meaning rest
    else c :: unescape digit meaning (d :: rest)

theorem unescapeSlash_eq (token : List Char) : unescapeSlash token = unescape '1' '/' token := by
  fun_induction unescape '1' '/' token with
  | case1 => rfl
  | case2 c => simp [unescapeSlash]
  | case3 c d rest escaped ih =>
    obtain ⟨rfl, rfl⟩ := escaped
    rw [unescapeSlash, ih]
  | case4 c d rest plain ih =>
    rw [unescapeSlash, ih]
    rintro _ rfl same
    cases same
    exact plain ⟨rfl, rfl⟩

theorem unescapeTilde_eq (token : List Char) : unescapeTilde token = unescape '0' '~' token := by
  fun_induction unescape '0' '~' token with
  | case1 => rfl
  | case2 c => simp [unescapeTilde]
  | case3 c d rest escaped ih =>
    obtain ⟨rfl, rfl⟩ := escaped
    rw [unescapeTilde, ih]
  | case4 c d rest plain ih =>
    rw [unescapeTilde, ih]
    rintro _ rfl same
    cases same
    exact plain ⟨rfl, rfl⟩

section Unescape

variable {digit meaning : Char} {token : List Char}

theorem length_unescape_le : (unescape digit meaning token).length ≤ token.length := by
  fun_induction unescape digit meaning token with
  | case1 | case2 => exact Nat.le_refl _
  | case3 c d rest _ ih => simp only [List.length_cons]; omega
  | case4 c d rest _ ih => simpa using ih

theorem unescape_eq_self (plain : ¬ ['~', digit] <:+: token) :
    unescape digit meaning token = token := by
  fun_induction unescape digit meaning token with
  | case1 | case2 => rfl
  | case3 c d rest escaped ih =>
    obtain ⟨rfl, rfl⟩ := escaped
    exact absurd ⟨[], rest, rfl⟩ plain
  | case4 c d rest _ ih =>
    rw [ih fun inside => plain (inside.trans (List.suffix_cons c _).isInfix)]

theorem length_unescape_lt (escaped : ['~', digit] <:+: token) :
    (unescape digit meaning token).length < token.length := by
  fun_induction unescape digit meaning token with
  | case1 => simp at escaped
  | case2 c => exact absurd escaped.length_le (by simp)
  | case3 c d rest _ _ =>
    have le : (unescape digit meaning rest).length ≤ rest.length := length_unescape_le
    simp only [List.length_cons]
    omega
  | case4 c d rest plain ih =>
    rcases List.infix_cons_iff.mp escaped with front | later
    · simp only [List.cons_prefix_cons] at front
      exact absurd ⟨front.1.symm, front.2.1.symm⟩ plain
    · simpa using ih later

end Unescape

theorem length_decode_le (token : List Char) : (decode token).toList.length ≤ token.length := by
  rw [decode, String.toList_ofList, unescapeSlash_eq, unescapeTilde_eq]
  exact length_unescape_le.trans length_unescape_le

theorem decode_eq_self {token : List Char} (plain : ∀ digit ∈ ['0', '1'], ¬ ['~', digit] <:+: token) :
    decode token = String.ofList token := by
  rw [decode, unescapeSlash_eq, unescapeTilde_eq, unescape_eq_self (plain '1' (by simp)),
    unescape_eq_self (plain '0' (by simp))]

theorem length_decode_lt {token : List Char} {digit : Char} (known : digit ∈ ['0', '1'])
    (escaped : ['~', digit] <:+: token) : (decode token).toList.length < token.length := by
  rw [decode, String.toList_ofList, unescapeSlash_eq, unescapeTilde_eq]
  by_cases slash : ['~', '1'] <:+: token
  · exact length_unescape_le.trans_lt (length_unescape_lt slash)
  · rw [unescape_eq_self slash]
    rcases List.mem_cons.mp known with rfl | one
    · exact length_unescape_lt escaped
    · exact absurd (List.mem_singleton.mp one ▸ escaped) slash

end Json.Pointer

open Json

namespace Payload

variable {token : List Char}

theorem trail_of_verbatim (verbatim : Pointer.Verbatim token) :
    trail (String.ofList ('/' :: token)) = [String.ofList token] := by
  simp [trail, List.splitOn_eq_singleton verbatim.whole,
    Pointer.decode_eq_self verbatim.plain]

theorem trail_of_not_verbatim (other : ¬ Pointer.Verbatim token) :
    ∃ name names, trail (String.ofList ('/' :: token)) = name :: names ∧
      name ≠ String.ofList token := by
  have names : trail (String.ofList ('/' :: token)) =
      (token.splitOn '/').map Pointer.decode := by
    simp [trail]
  suffices ∃ name names, (token.splitOn '/').map Pointer.decode = name :: names ∧
      name.toList.length < token.length by
    obtain ⟨name, rest, split, shorter⟩ := this
    refine ⟨name, rest, names.trans split, ?_⟩
    rintro rfl
    simp at shorter
  by_cases slash : '/' ∈ token
  · obtain ⟨first, rest, rfl, whole⟩ := List.eq_append_cons_of_mem slash
    rw [List.splitOn_append_cons_self_of_not_mem whole]
    refine ⟨_, _, rfl, ?_⟩
    have le := Pointer.length_decode_le first
    simp only [List.length_append, List.length_cons]
    omega
  · have escaped : ∃ digit ∈ ['0', '1'], ['~', digit] <:+: token := by
      by_contra none
      exact other ⟨slash, fun digit known inside => none ⟨digit, known, inside⟩⟩
    obtain ⟨digit, known, inside⟩ := escaped
    rw [List.splitOn_eq_singleton slash]
    exact ⟨_, _, rfl, Pointer.length_decode_lt known inside⟩

theorem select_slash (value : Json) (token : List Char) :
    select value (some (String.ofList ('/' :: token))) =
      follow value (trail (String.ofList ('/' :: token))) := by
  simp [select, Pointer.select?, trail, follow]

end Payload

namespace Codes

/-- A ticker has a slash or a tilde only where its codes or its separator have one, in either
case. -/
theorem mem_spelled_of_mem_ticker {c : Codes} {pair : AssetPair} {d : Char}
    (structural : d = '/' ∨ d = '~') (member : d ∈ (c.ticker pair).toList) :
    d ∈ (c.spelled pair).toList := by
  rw [ticker_eq] at member
  split at member
  · rw [Text.lower, String.toList_ofList] at member
    rcases structural with rfl | rfl
    · exact Text.mem_of_mem_lower_go member (by decide) (by decide)
    · exact Text.mem_of_mem_lower_go member (by decide) (by decide)
  · exact member

theorem verbatim_ticker {c : Codes} {pair : AssetPair}
    (free : ∀ d ∈ (c.spelled pair).toList, d ≠ '/' ∧ d ≠ '~') :
    Pointer.Verbatim (c.ticker pair).toList := by
  refine .of_forall fun d member => ⟨?_, ?_⟩
  · rintro rfl
    exact (free _ (mem_spelled_of_mem_ticker (.inl rfl) member)).1 rfl
  · rintro rfl
    exact (free _ (mem_spelled_of_mem_ticker (.inr rfl) member)).2 rfl

end Codes

namespace Adapter

def memberPointer : String := "/" ++ pairHole

theorem pointer_member (a : Adapter) (pair : AssetPair) :
    a.pointer (some memberPointer) pair =
      some (String.ofList ('/' :: (a.codes.ticker pair).toList)) := by
  have filled : ∀ value : List Char,
      Text.fillChars pairHole.toList value memberPointer.toList = '/' :: value := by
    intro value
    have chars : memberPointer.toList = '/' :: pairHole.toList := rfl
    simp [chars, pairHole, Text.fillChars, Text.fillChars.go]
  simp [pointer, Text.fill, filled]

/-- The pointer made from the ticker of a pair gives the member that the ticker names, and nothing
where there is no such member, if the ticker is verbatim; it is where neither the codes nor the
separator have a slash or a tilde. For any other ticker it makes no difference whether the member
is there, and in some objects without it the pointer leads to another value. -/
theorem pointer_reaches_verbatim_tickers (a : Adapter) (pair : AssetPair) :
    let ticker := a.codes.ticker pair
    let selected := fun members : List (String × Json) =>
      Payload.select (.obj members) (a.pointer (some memberPointer) pair)
    (Pointer.Verbatim ticker.toList → ∀ members, (members.map (·.1)).Nodup →
      ∀ v, selected members = some v ↔ (ticker, v) ∈ members) ∧
    (¬ Pointer.Verbatim ticker.toList →
      (∀ before v after, selected (before ++ (ticker, v) :: after) = selected (before ++ after)) ∧
      ∀ v, ∃ members, (members.map (·.1)).Nodup ∧ ticker ∉ members.map (·.1) ∧
        selected members = some v) ∧
    ((∀ d ∈ (a.codes.spelled pair).toList, d ≠ '/' ∧ d ≠ '~') →
      Pointer.Verbatim ticker.toList) := by
  intro ticker selected
  have along : ∀ members, selected members =
      Payload.follow (.obj members) (Payload.trail (String.ofList ('/' :: ticker.toList))) := by
    intro members
    rw [← Payload.select_slash, ← pointer_member]
  refine ⟨fun verbatim members distinct v => ?_, fun other => ?_, Codes.verbatim_ticker⟩
  · rw [along, Payload.trail_of_verbatim verbatim, String.ofList_toList]
    have looked : Payload.follow (.obj members) [ticker] = members.lookup ticker := by
      simp [Pointer.step]
    rw [looked]
    refine ⟨fun found => ?_, lookup_of_mem_entries distinct⟩
    obtain ⟨before, after, rfl, _⟩ := List.lookup_eq_some_iff.mp found
    exact List.mem_append_right _ List.mem_cons_self
  · obtain ⟨name, names, leads, differs⟩ := Payload.trail_of_not_verbatim other
    rw [String.ofList_toList] at differs
    constructor
    · intro before v after
      rw [along, along, leads]
      simp [Pointer.step, List.lookup_append, List.lookup_cons, beq_eq_false_iff_ne.mpr differs]
    · intro v
      refine ⟨[(name, Payload.nest names v)],
        List.nodup_cons.mpr ⟨List.not_mem_nil, List.nodup_nil⟩, ?_, ?_⟩
      · simpa using differs.symm
      · rw [along, leads]
        exact Payload.follow_nest (name :: names) v

def bookAdapter (separator : Char) : Adapter :=
  .of
    { id := "book", network := "Book", baseUrl := "http://book", pairSeparator := some separator
      orderBook := some { path := "/book?pair=" ++ pairHole, pointer := some memberPointer } }
    [] 0 0

/-- A tilde before a letter is no escape. -/
theorem tilde_ticker_is_reached :
    let a := bookAdapter '~'
    let books : List (String × Json) := [("BTC~1INCH", .str "other"), ("BTC~USD", .str "book")]
    Pointer.Verbatim (a.codes.ticker (.of "BTC" "USD")).toList ∧ (books.map (·.1)).Nodup ∧
      Payload.select (.obj books) (a.pointer (some memberPointer) (.of "BTC" "USD")) =
        some (.str "book") := by
  intro a books
  have written : a.codes.ticker (.of "BTC" "USD") = "BTC~USD" := by decide +kernel
  have verbatim : Pointer.Verbatim (a.codes.ticker (.of "BTC" "USD")).toList := by
    rw [written]
    decide
  have distinct : (books.map (·.1)).Nodup := by decide
  have named : (a.codes.ticker (.of "BTC" "USD"), .str "book") ∈ books := by
    rw [written]
    exact List.mem_cons_of_mem _ List.mem_cons_self
  refine ⟨verbatim, distinct, ?_⟩
  exact ((pointer_reaches_verbatim_tickers a (.of "BTC" "USD")).1 verbatim books distinct _).mpr
    named

/-- A slash between the codes hides the member: the ticker is read as two names. -/
theorem slash_ticker_is_missed :
    let a := bookAdapter '/'
    a.description.validate = .ok () ∧ a.codes.ticker (.of "BTC" "USD") = "BTC/USD" ∧
      Payload.select (.obj [("BTC/USD", .str "book")])
        (a.pointer (some memberPointer) (.of "BTC" "USD")) = none := by
  decide +kernel

end Adapter

end PriceDesk
