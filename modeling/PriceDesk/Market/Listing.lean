import PriceDesk.Market.Asset

namespace PriceDesk

/-- A set of pairs that keeps the order of arrival: a list, and beside it an index of what is in the
list, in which a pair is looked up. -/
structure PairSet where
  pairs : List AssetPair := []
  index : List AssetPair := []
deriving DecidableEq

namespace PairSet

variable {s : PairSet} {p q : AssetPair}

def contains (s : PairSet) (p : AssetPair) : Bool := s.index.contains p

def containsReversed (s : PairSet) (p : AssetPair) : Bool := s.contains p.reversed

def size (s : PairSet) : Nat := s.pairs.length

def isEmpty (s : PairSet) : Bool := s.pairs.isEmpty

/-- Whether a pair is new, and the set with it: a new pair goes to the end of the list. -/
def add (s : PairSet) (p : AssetPair) : Bool × PairSet :=
  if s.index.contains p then (false, s)
  else (true, { pairs := s.pairs ++ [p], index := p :: s.index })

def extend (s : PairSet) (ps : List AssetPair) : PairSet := ps.foldl (fun s p => (s.add p).2) s

def ofList (ps : List AssetPair) : PairSet := extend {} ps

/-- The list has no repetition, and what is in the index is what is in the list. -/
structure InStep (s : PairSet) : Prop where
  nodup : s.pairs.Nodup
  contains_iff : ∀ p, s.contains p = true ↔ p ∈ s.pairs

theorem inStep_empty : InStep {} := ⟨List.nodup_nil, fun p => by simp [contains]⟩

theorem add_of_contains (there : s.contains p = true) : s.add p = (false, s) := if_pos there

theorem add_of_new (new : ¬ s.contains p = true) :
    s.add p = (true, { pairs := s.pairs ++ [p], index := p :: s.index }) := if_neg new

theorem InStep.add (inStep : s.InStep) (p : AssetPair) : (s.add p).2.InStep := by
  by_cases there : s.contains p = true
  · rwa [add_of_contains there]
  · rw [add_of_new there]
    have new : p ∉ s.pairs := mt (inStep.contains_iff p).mpr there
    refine ⟨?_, fun q => ?_⟩
    · refine List.nodup_append.mpr ⟨inStep.nodup, by simp, fun q member r same => ?_⟩
      rw [List.mem_singleton.mp same]
      exact ne_of_mem_of_not_mem member new
    · have known := inStep.contains_iff q
      rw [contains, List.contains_iff_mem] at known ⊢
      rw [List.mem_cons, List.mem_append, List.mem_singleton, known, or_comm]

theorem InStep.extend (inStep : s.InStep) (ps : List AssetPair) : (s.extend ps).InStep := by
  induction ps generalizing s with
  | nil => exact inStep
  | cons p ps ih => exact ih (inStep.add p)

theorem InStep.mem_add (inStep : s.InStep) : q ∈ (s.add p).2.pairs ↔ q ∈ s.pairs ∨ q = p := by
  by_cases there : s.contains p = true
  · have listed : p ∈ s.pairs := (inStep.contains_iff p).mp there
    rw [add_of_contains there]
    exact ⟨.inl, fun mem => mem.elim id (· ▸ listed)⟩
  · rw [add_of_new there, List.mem_append, List.mem_singleton]

theorem InStep.mem_extend (inStep : s.InStep) {ps : List AssetPair} :
    q ∈ (s.extend ps).pairs ↔ q ∈ s.pairs ∨ q ∈ ps := by
  induction ps generalizing s with
  | nil => simp [PairSet.extend]
  | cons p ps ih =>
    rw [PairSet.extend, List.foldl_cons, ← PairSet.extend, ih (inStep.add p), inStep.mem_add,
      List.mem_cons, or_assoc]

end PairSet

/-- The pairs that a provider offers, in the order in which it named them. -/
structure Listing extends PairSet where
  inStep : toPairSet.InStep
deriving DecidableEq

namespace Listing

def empty : Listing := ⟨{}, PairSet.inStep_empty⟩

instance : Inhabited Listing := ⟨empty⟩

def add (l : Listing) (p : AssetPair) : Bool × Listing :=
  ((l.toPairSet.add p).1, ⟨(l.toPairSet.add p).2, l.inStep.add p⟩)

def extend (l : Listing) (ps : List AssetPair) : Listing :=
  ⟨l.toPairSet.extend ps, l.inStep.extend ps⟩

def ofList (ps : List AssetPair) : Listing := empty.extend ps

theorem contains_iff {l : Listing} {p : AssetPair} : l.contains p = true ↔ p ∈ l.pairs :=
  l.inStep.contains_iff p

theorem mem_extend {l : Listing} {ps : List AssetPair} {q : AssetPair} :
    q ∈ (l.extend ps).pairs ↔ q ∈ l.pairs ∨ q ∈ ps := l.inStep.mem_extend

end Listing

end PriceDesk
