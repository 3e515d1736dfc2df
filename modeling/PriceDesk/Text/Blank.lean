namespace PriceDesk.Text

def isBlank (c : Char) : Bool :=
  let n := c.toNat
  (0x09 ≤ n && n ≤ 0x0d) || n == 0x20 || n == 0x85 || n == 0xa0 || n == 0x1680 ||
    (0x2000 ≤ n && n ≤ 0x200a) || n == 0x2028 || n == 0x2029 || n == 0x202f || n == 0x205f ||
    n == 0x3000

def trimChars (cs : List Char) : List Char :=
  ((cs.dropWhile isBlank).reverse.dropWhile isBlank).reverse

def trim (s : String) : String :=
  String.ofList (trimChars s.toList)

theorem dropWhile_isBlank_of_head? (cs : List Char)
    (h : ∀ c, cs.head? = some c → isBlank c = false) : cs.dropWhile isBlank = cs := by
  cases cs with
  | nil => rfl
  | cons a cs => rw [List.dropWhile_cons, if_neg (by simp [h a rfl])]

theorem head?_trimChars (cs : List Char) (c : Char) (h : (trimChars cs).head? = some c) :
    isBlank c = false := by
  have first : (cs.dropWhile isBlank).head? = some c := by
    obtain ⟨cut, whole⟩ := (cs.dropWhile isBlank).reverse.dropWhile_suffix isBlank
    have reversed := congrArg List.reverse whole
    simp only [List.reverse_append, List.reverse_reverse] at reversed
    rw [← reversed, List.head?_append]
    rw [trimChars] at h
    simp [h]
  have solid := List.head?_dropWhile_not isBlank cs
  rwa [first] at solid

theorem head?_reverse_trimChars (cs : List Char) (c : Char)
    (h : (trimChars cs).reverse.head? = some c) : isBlank c = false := by
  rw [trimChars, List.reverse_reverse] at h
  have solid := List.head?_dropWhile_not isBlank (cs.dropWhile isBlank).reverse
  rwa [h] at solid

theorem trimChars_eq_self {cs : List Char} (front : ∀ c, cs.head? = some c → isBlank c = false)
    (back : ∀ c, cs.reverse.head? = some c → isBlank c = false) : trimChars cs = cs := by
  rw [trimChars, dropWhile_isBlank_of_head? cs front, dropWhile_isBlank_of_head? _ back,
    List.reverse_reverse]

theorem trimChars_trimChars (cs : List Char) : trimChars (trimChars cs) = trimChars cs :=
  trimChars_eq_self (head?_trimChars cs) (head?_reverse_trimChars cs)

theorem trimChars_map {f : Char → Char} (h : ∀ c, isBlank (f c) = isBlank c) (cs : List Char) :
    trimChars (cs.map f) = (trimChars cs).map f := by
  have same : isBlank ∘ f = isBlank := funext h
  simp only [trimChars, List.dropWhile_map, ← List.map_reverse, same]

theorem toUpper_cases (c : Char) :
    (97 ≤ c.toNat ∧ c.toNat ≤ 122 ∧ c.toUpper.toNat + 32 = c.toNat) ∨
      ((c.toNat < 97 ∨ 122 < c.toNat) ∧ c.toUpper = c) := by
  have e : c.val.toNat = c.toNat := rfl
  by_cases h : 'a'.val ≤ c.val ∧ c.val ≤ 'z'.val
  · left
    have low : 97 ≤ c.toNat := UInt32.le_iff_toNat_le.mp h.1
    have high : c.toNat ≤ 122 := UInt32.le_iff_toNat_le.mp h.2
    refine ⟨low, high, ?_⟩
    have up : c.toUpper.toNat = (c.val + ('A'.val - 'a'.val)).toNat := by
      delta Char.toUpper
      rw [dif_pos h]
      rfl
    have shift : ('A'.val - 'a'.val).toNat = 4294967264 := by decide
    rw [up, UInt32.toNat_add, shift, e]
    omega
  · right
    have stays : c.toUpper = c := by
      delta Char.toUpper
      exact dif_neg h
    refine ⟨?_, stays⟩
    rcases Nat.lt_or_ge c.toNat 97 with low | low
    · exact .inl low
    · refine .inr (Nat.lt_of_not_le fun high => h ⟨?_, ?_⟩)
      · exact UInt32.le_iff_toNat_le.mpr low
      · exact UInt32.le_iff_toNat_le.mpr high

theorem isBlank_toUpper (c : Char) : isBlank c.toUpper = isBlank c := by
  rcases toUpper_cases c with ⟨low, high, up⟩ | ⟨_, same⟩
  · have blank : ∀ n : Nat, 65 ≤ n → n ≤ 122 →
        ((decide (0x09 ≤ n) && decide (n ≤ 0x0d)) || n == 0x20 || n == 0x85 || n == 0xa0 ||
          n == 0x1680 || (decide (0x2000 ≤ n) && decide (n ≤ 0x200a)) || n == 0x2028 ||
          n == 0x2029 || n == 0x202f || n == 0x205f || n == 0x3000) = false := by
      intro n low high
      simp
      omega
    simp only [isBlank]
    rw [blank _ (by omega) (by omega), blank _ (by omega) (by omega)]
  · rw [same]

theorem toUpper_toUpper (c : Char) : c.toUpper.toUpper = c.toUpper := by
  rcases toUpper_cases c.toUpper with ⟨low, high, _⟩ | ⟨_, same⟩
  · rcases toUpper_cases c with ⟨_, _, up⟩ | ⟨out, same⟩
    · omega
    · rw [same] at low high
      omega
  · exact same

end PriceDesk.Text
