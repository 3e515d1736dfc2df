import PriceDesk.Market.Listing
import PriceDesk.Proofs.Market.Division

namespace PriceDesk.PairSet

variable {given : List AssetPair} {s : PairSet}

/-- The sets that can be filled, each with the pairs that it was given, in order. -/
inductive Filled : List AssetPair → PairSet → Prop
  | empty : Filled [] {}
  | add {given : List AssetPair} {s : PairSet} (filled : Filled given s) (p : AssetPair) :
    Filled (given ++ [p]) (s.add p).2
  | extend {given : List AssetPair} {s : PairSet} (filled : Filled given s)
    (ps : List AssetPair) : Filled (given ++ ps) (s.extend ps)
  | collect (ps : List AssetPair) : Filled ps (.ofList ps)

structure Holds (given : List AssetPair) (s : PairSet) : Prop where
  once : s.pairs.Nodup
  contained : ∀ p, s.contains p = true ↔ p ∈ s.pairs
  exhausts : ∀ p, p ∈ s.pairs ↔ p ∈ given
  inOrder : s.pairs.Pairwise fun p q => given.idxOf p < given.idxOf q
  new : ∀ p, (s.add p).1 = true ↔ p ∉ given

structure Keeps (given : List AssetPair) (s : PairSet) : Prop where
  inStep : s.InStep
  pairs_eq : s.pairs = given.eraseDups

theorem keeps_empty : Keeps [] {} := ⟨inStep_empty, rfl⟩

theorem Keeps.contains_iff (keeps : Keeps given s) (p : AssetPair) :
    s.contains p = true ↔ p ∈ given := by
  rw [keeps.inStep.contains_iff, keeps.pairs_eq, List.mem_eraseDups]

theorem Keeps.add (keeps : Keeps given s) (p : AssetPair) : Keeps (given ++ [p]) (s.add p).2 := by
  refine ⟨keeps.inStep.add p, ?_⟩
  rw [eraseDups_concat, ← keeps.pairs_eq]
  by_cases known : p ∈ given
  · rw [add_of_contains ((keeps.contains_iff p).mpr known), if_pos known]
  · rw [add_of_new (mt (keeps.contains_iff p).mp known), if_neg known]

theorem Keeps.extend (keeps : Keeps given s) (ps : List AssetPair) :
    Keeps (given ++ ps) (s.extend ps) := by
  induction ps generalizing s given with
  | nil => rwa [List.append_nil]
  | cons p ps ih => simpa [PairSet.extend] using ih (keeps.add p)

theorem Filled.keeps (filled : Filled given s) : Keeps given s := by
  induction filled with
  | empty => exact keeps_empty
  | add _ p ih => exact ih.add p
  | extend _ ps ih => exact ih.extend ps
  | collect ps => exact keeps_empty.extend ps

theorem Filled.holds (filled : Filled given s) : Holds given s where
  once := filled.keeps.inStep.nodup
  contained := filled.keeps.inStep.contains_iff
  exhausts p := by rw [filled.keeps.pairs_eq, List.mem_eraseDups]
  inOrder := filled.keeps.pairs_eq ▸ eraseDups_inOrder given
  new p := by
    rw [← filled.keeps.contains_iff]
    by_cases there : s.contains p = true
    · simp [add_of_contains there, there]
    · simp [add_of_new there, there]

theorem Filled.foldl_extend {l : Listing} (filled : Filled given l.toPairSet) (ls : List Listing) :
    Filled (given ++ ls.flatMap (·.pairs))
      (ls.foldl (fun all l => all.extend l.pairs) l).toPairSet := by
  induction ls generalizing given l with
  | nil => simpa using filled
  | cons m ls ih =>
    rw [List.foldl_cons, List.flatMap_cons, ← List.append_assoc]
    exact ih (filled.extend m.pairs)

end PriceDesk.PairSet
