import PriceDesk.Text.Blank
import PriceDesk.Text.Case

namespace PriceDesk.Text

variable {c d : Char} {cs ds : List Char}

def Ascii (cs : List Char) : Prop := ∀ c ∈ cs, c.toNat < 0x80

instance : Decidable (Ascii cs) :=
  decidable_of_iff (cs.all (·.toNat < 0x80)) (by simp [Ascii])

theorem ascii_cases {P : Char → Prop} (all : ∀ n < 0x80, P (Char.ofNat n))
    (ascii : c.toNat < 0x80) : P c := by
  rw [← Char.ofNat_toNat c]
  exact all c.toNat ascii

theorem toNat_toLower_lt : c.toNat < 0x80 → c.toLower.toNat < 0x80 :=
  ascii_cases (P := fun c => c.toLower.toNat < 0x80) (by decide)

theorem toUpper_toLower : c.toNat < 0x80 → c.toLower.toUpper = c.toUpper :=
  ascii_cases (P := fun c => c.toLower.toUpper = c.toUpper) (by decide)

theorem isBlank_toLower : c.toNat < 0x80 → isBlank c.toLower = isBlank c :=
  ascii_cases (P := fun c => isBlank c.toLower = isBlank c) (by decide)

structure Capital (c : Char) : Prop where
  ascii : c.toNat < 0x80
  upper : c.toUpper = c

instance : DecidablePred Capital := fun c =>
  decidable_of_iff (c.toNat < 0x80 ∧ c.toUpper = c) ⟨fun h => ⟨h.1, h.2⟩, fun h => ⟨h.1, h.2⟩⟩

theorem Capital.upperChar (capital : Capital c) : upperChar c = [c] := by
  rw [Text.upperChar, if_pos capital.ascii, capital.upper]

def StandsHigh (n : Nat) : Prop := 0x80 ≤ n ∨ 0x41 ≤ n ∧ n ≤ 0x5a

instance : DecidablePred StandsHigh := fun n =>
  inferInstanceAs (Decidable (0x80 ≤ n ∨ 0x41 ≤ n ∧ n ≤ 0x5a))

theorem standsHigh_expansion :
    ∀ e ∈ upperExpansions, e.2 ≠ [] ∧ ∀ n ∈ e.2, StandsHigh n := by
  decide +kernel

theorem standsHigh_shift :
    ∀ r ∈ upperShifts, r.hi < 0x80 ∨ 0x80 ≤ r.lo + r.shift ∨
      0x41 ≤ r.lo + r.shift ∧ r.hi + r.shift ≤ 0x5a := by
  decide +kernel

theorem upperChar_ne_nil (c : Char) : upperChar c ≠ [] := by
  rw [upperChar, mapCase]
  split
  · exact List.cons_ne_nil _ _
  · split
    · rename_i found
      have listed := List.mem_of_find?_eq_some found
      simpa using (standsHigh_expansion _ listed).1
    · split <;> exact List.cons_ne_nil _ _

theorem mem_mapCase {shifts : List ShiftRange} {expansions : List (Nat × List Nat)}
    {P : Nat → Prop} (expands : ∀ e ∈ expansions, ∀ n ∈ e.2, P n)
    (shifted : ∀ r ∈ shifts, ∀ n, 0x80 ≤ n → r.lo ≤ n → n ≤ r.hi → P (n + r.shift).toNat)
    (beyond : 0x80 ≤ c.toNat) (member : d ∈ mapCase shifts expansions c) :
    d = c ∨ ∃ n, P n ∧ d = Char.ofNat n := by
  rw [mapCase] at member
  split at member
  · rename_i found
    have listed := List.mem_of_find?_eq_some found
    obtain ⟨n, inside, rfl⟩ := List.mem_map.mp member
    exact .inr ⟨n, expands _ listed n inside, rfl⟩
  · split at member
    · rename_i r found
      have listed := List.mem_of_find?_eq_some found
      have covered := List.find?_some found
      simp only [ShiftRange.covers, Bool.and_eq_true, decide_eq_true_eq] at covered
      exact .inr ⟨_, shifted r listed _ beyond covered.1.1 covered.1.2,
        List.mem_singleton.mp member⟩
    · exact .inl (List.mem_singleton.mp member)

theorem exists_standsHigh (beyond : 0x80 ≤ c.toNat) (member : d ∈ upperChar c) :
    d = c ∨ ∃ n, StandsHigh n ∧ d = Char.ofNat n := by
  rw [upperChar, if_neg (by omega)] at member
  refine mem_mapCase (fun e listed => (standsHigh_expansion e listed).2) ?_ beyond member
  intro r listed n high low top
  have bounds := standsHigh_shift r listed
  unfold StandsHigh
  omega

theorem toNat_ofNat (n : Nat) : (Char.ofNat n).toNat = n ∨ (Char.ofNat n).toNat = 0 := by
  delta Char.ofNat
  by_cases valid : n.isValidChar
  · left
    rw [dif_pos valid]
    rfl
  · right
    rw [dif_neg valid]
    rfl

/-- Where upper case leads from beyond ASCII into it, it leads to a capital letter; the only other
way is a code point that no character has. -/
theorem toNat_of_mem_upperChar (beyond : 0x80 ≤ c.toNat) (member : d ∈ upperChar c)
    (ascii : d.toNat < 0x80) : d.toNat = 0 ∨ 0x41 ≤ d.toNat ∧ d.toNat ≤ 0x5a := by
  rcases exists_standsHigh beyond member with rfl | ⟨n, high, rfl⟩
  · omega
  · unfold StandsHigh at high
    rcases toNat_ofNat n with same | zero <;> omega

theorem capital_of_mem_upperChar (member : d ∈ upperChar c) (ascii : d.toNat < 0x80) :
    Capital d := by
  refine ⟨ascii, ?_⟩
  by_cases latin : c.toNat < 0x80
  · rw [upperChar, if_pos latin, List.mem_singleton] at member
    rw [member, toUpper_toUpper]
  · have range := toNat_of_mem_upperChar (by omega) member ascii
    rcases toUpper_cases d with ⟨low, high, _⟩ | ⟨_, same⟩
    · omega
    · exact same

theorem isBlank_of_mem_upperChar (solid : isBlank c = false) (member : d ∈ upperChar c)
    (ascii : d.toNat < 0x80) : isBlank d = false := by
  by_cases latin : c.toNat < 0x80
  · rw [upperChar, if_pos latin, List.mem_singleton] at member
    rw [member, isBlank_toUpper, solid]
  · have range := toNat_of_mem_upperChar (by omega) member ascii
    simp only [isBlank, Bool.or_eq_false_iff, Bool.and_eq_false_iff, beq_eq_false_iff_ne,
      decide_eq_false_iff_not]
    omega

section Trimmed

variable {f : Char → List Char}

theorem isBlank_head?_flatMap (filled : ∀ c ∈ cs, f c ≠ [])
    (solid : ∀ c ∈ cs, isBlank c = false → ∀ d ∈ f c, isBlank d = false)
    (front : ∀ c, cs.head? = some c → isBlank c = false) :
    ∀ d, (cs.flatMap f).head? = some d → isBlank d = false := by
  intro d first
  cases cs with
  | nil => cases first
  | cons c cs =>
    obtain ⟨e, es, image⟩ := List.exists_cons_of_ne_nil (filled c List.mem_cons_self)
    rw [List.flatMap_cons, image] at first
    cases first
    refine solid c List.mem_cons_self (front c rfl) d ?_
    rw [image]
    exact List.mem_cons_self

theorem trimChars_flatMap (filled : ∀ c ∈ cs, f c ≠ [])
    (solid : ∀ c ∈ cs, isBlank c = false → ∀ d ∈ f c, isBlank d = false)
    (trimmed : trimChars cs = cs) : trimChars (cs.flatMap f) = cs.flatMap f := by
  apply trimChars_eq_self
  · apply isBlank_head?_flatMap filled solid
    rw [← trimmed]
    exact head?_trimChars cs
  · rw [List.reverse_flatMap]
    refine isBlank_head?_flatMap (fun c member => ?_) (fun c member blank d inside => ?_) ?_
    · simpa using filled c (List.mem_reverse.mp member)
    · exact solid c (List.mem_reverse.mp member) blank d (List.mem_reverse.mp inside)
    · rw [← trimmed]
      exact head?_reverse_trimChars cs

theorem trimChars_append (first : trimChars cs = cs) (last : trimChars ds = ds) (front : cs ≠ [])
    (back : ds ≠ []) (es : List Char) : trimChars (cs ++ es ++ ds) = cs ++ es ++ ds := by
  apply trimChars_eq_self
  · intro c head
    apply head?_trimChars cs
    rw [first]
    obtain ⟨c', cs, rfl⟩ := List.exists_cons_of_ne_nil front
    exact head
  · intro c head
    apply head?_reverse_trimChars ds
    rw [last]
    obtain ⟨c', rest, whole⟩ := List.exists_cons_of_ne_nil (mt List.reverse_eq_nil_iff.mp back)
    rw [List.reverse_append, whole] at head
    rw [whole]
    exact head

end Trimmed

structure Settled (cs : List Char) : Prop where
  capital : ∀ c ∈ cs, Capital c
  trimmed : trimChars cs = cs

def Solid (cs : List Char) : Prop := ∀ c ∈ cs, Capital c ∧ isBlank c = false

instance : Decidable (Solid cs) :=
  decidable_of_iff (cs.all fun c => Capital c ∧ isBlank c = false) (by simp [Solid])

theorem Solid.settled (solid : Solid cs) : Settled cs := by
  refine ⟨fun c member => (solid c member).1, ?_⟩
  apply trimChars_eq_self
  · intro c first
    exact (solid c (List.mem_of_head? first)).2
  · intro c last
    exact (solid c (List.mem_reverse.mp (List.mem_of_head? last))).2

theorem Solid.mono (solid : Solid cs) (within : ds ⊆ cs) : Solid ds := fun c member =>
  solid c (within member)

theorem flatMap_eq_self {f : Char → List Char} (fixed : ∀ c ∈ cs, f c = [c]) :
    cs.flatMap f = cs := by
  induction cs with
  | nil => rfl
  | cons c cs ih =>
    rw [List.flatMap_cons, fixed c List.mem_cons_self,
      ih fun c member => fixed c (List.mem_cons_of_mem _ member)]
    rfl

theorem Settled.ascii (settled : Settled cs) : Ascii cs := fun c member =>
  (settled.capital c member).ascii

theorem settled_upper (ascii : Ascii ((trimChars cs).flatMap upperChar)) :
    Settled ((trimChars cs).flatMap upperChar) := by
  have low : ∀ c ∈ trimChars cs, ∀ d ∈ upperChar c, d.toNat < 0x80 := fun c member d inside =>
    ascii d (List.mem_flatMap.mpr ⟨c, member, inside⟩)
  refine ⟨fun d member => ?_, ?_⟩
  · obtain ⟨c, _, inside⟩ := List.mem_flatMap.mp member
    exact capital_of_mem_upperChar inside (ascii d member)
  · apply trimChars_flatMap (fun c _ => upperChar_ne_nil c) ?_ (trimChars_trimChars cs)
    intro c member solid d inside
    exact isBlank_of_mem_upperChar solid inside (low c member d inside)

theorem lower_go (ascii : Ascii cs) (before : List Char) :
    lower.go before cs = cs.map Char.toLower := by
  induction cs generalizing before with
  | nil => rfl
  | cons c cs ih =>
    have low := ascii c List.mem_cons_self
    have plain : (c.toNat == 0x3a3) = false := beq_eq_false_iff_ne.mpr (by omega)
    rw [lower.go, plain, ih fun c member => ascii c (List.mem_cons_of_mem _ member)]
    simp only [Bool.false_eq_true, if_false, lowerChar, if_pos low]
    rfl

theorem toList_lower {s : String} (ascii : Ascii s.toList) :
    (lower s).toList = s.toList.map Char.toLower := by
  rw [lower, String.toList_ofList, lower_go ascii]

def StandsLow (n : Nat) : Prop := 0x80 ≤ n ∨ 0x61 ≤ n ∧ n ≤ 0x7a

instance : DecidablePred StandsLow := fun n =>
  inferInstanceAs (Decidable (0x80 ≤ n ∨ 0x61 ≤ n ∧ n ≤ 0x7a))

theorem standsLow_expansion : ∀ e ∈ lowerExpansions, ∀ n ∈ e.2, StandsLow n := by
  decide +kernel

theorem standsLow_shift :
    ∀ r ∈ lowerShifts, r.hi < 0x80 ∨ 0x80 ≤ r.lo + r.shift ∨
      0x61 ≤ r.lo + r.shift ∧ r.hi + r.shift ≤ 0x7a := by
  decide +kernel

theorem toLower_eq_or_standsLow : c.toNat < 0x80 → c.toLower = c ∨ StandsLow c.toLower.toNat :=
  ascii_cases (P := fun c => c.toLower = c ∨ StandsLow c.toLower.toNat) (by decide)

theorem exists_standsLow (member : d ∈ lowerChar c) :
    d = c ∨ ∃ n, StandsLow n ∧ d = Char.ofNat n := by
  by_cases latin : c.toNat < 0x80
  · rw [lowerChar, if_pos latin, List.mem_singleton] at member
    refine (toLower_eq_or_standsLow latin).imp member.trans fun low => ?_
    exact ⟨d.toNat, member ▸ low, (Char.ofNat_toNat d).symm⟩
  · rw [lowerChar, if_neg latin] at member
    refine mem_mapCase standsLow_expansion ?_ (by omega) member
    intro r listed n high low top
    have bounds := standsLow_shift r listed
    unfold StandsLow
    omega

theorem mem_of_mem_lower_go {before : List Char} (member : d ∈ lower.go before cs)
    (filled : d.toNat ≠ 0) (other : ¬ StandsLow d.toNat) : d ∈ cs := by
  have same : ∀ n, StandsLow n → d ≠ Char.ofNat n := by
    rintro n low rfl
    rcases toNat_ofNat n with eq | zero
    · exact other (eq.symm ▸ low)
    · exact filled zero
  induction cs generalizing before with
  | nil => cases member
  | cons c cs ih =>
    rw [lower.go] at member
    rcases List.mem_append.mp member with here | later
    · have source : d = c ∨ ∃ n, StandsLow n ∧ d = Char.ofNat n := by
        split at here
        · split at here
          · exact .inr ⟨0x3c2, by decide, List.mem_singleton.mp here⟩
          · exact .inr ⟨0x3c3, by decide, List.mem_singleton.mp here⟩
        · exact exists_standsLow here
      rcases source with rfl | ⟨n, low, eq⟩
      · exact List.mem_cons_self
      · exact absurd eq (same n low)
    · exact List.mem_cons_of_mem _ (ih later)

theorem Settled.upper_trim (settled : Settled cs) : (trimChars cs).flatMap upperChar = cs := by
  rw [settled.trimmed]
  exact flatMap_eq_self fun c member => (settled.capital c member).upperChar

theorem Settled.upper_lower (settled : Settled cs) :
    (trimChars (cs.map Char.toLower)).flatMap upperChar = cs := by
  have trimmed : trimChars (cs.map Char.toLower) = cs.map Char.toLower := by
    rw [List.map_eq_flatMap]
    apply trimChars_flatMap (fun c _ => List.cons_ne_nil _ _) ?_ settled.trimmed
    intro c member solid d inside
    rw [List.mem_singleton.mp inside, isBlank_toLower (settled.ascii c member), solid]
  rw [trimmed, List.flatMap_map]
  apply flatMap_eq_self
  intro c member
  have capital := settled.capital c member
  rw [upperChar, if_pos (toNat_toLower_lt capital.ascii), toUpper_toLower capital.ascii,
    capital.upper]

end PriceDesk.Text
