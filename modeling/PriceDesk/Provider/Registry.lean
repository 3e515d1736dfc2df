import PriceDesk.Provider.Preference

namespace PriceDesk

def firstBy {α β : Type} [BEq β] (key : α → β) : List α → List α
  | [] => []
  | a :: as => a :: (firstBy key as).filter (key · != key a)

section FirstBy

variable {α β : Type} [BEq β] {key : α → β} {as : List α}

theorem firstBy_sublist : (firstBy key as).Sublist as := by
  induction as with
  | nil => exact .slnil
  | cons a as ih => exact .cons_cons a (List.filter_sublist.trans ih)

theorem firstBy_distinct : (firstBy key as).Pairwise fun a b => (key b != key a) = true := by
  induction as with
  | nil => exact .nil
  | cons a as ih =>
    refine .cons ?_ (ih.filter _)
    intro b member
    exact (List.mem_filter.mp member).2

theorem firstBy_map {γ : Type} (f : γ → α) (cs : List γ) :
    firstBy key (cs.map f) = (firstBy (key ∘ f) cs).map f := by
  induction cs with
  | nil => rfl
  | cons c cs ih =>
    rw [List.map_cons, firstBy, ih, List.filter_map]
    rfl

theorem exists_firstBy [EquivBEq β] {a : α} (member : a ∈ as) :
    ∃ b ∈ firstBy key as, (key b == key a) = true := by
  induction as with
  | nil => cases member
  | cons c as ih =>
    rcases List.mem_cons.mp member with rfl | member
    · exact ⟨a, List.mem_cons_self, BEq.rfl⟩
    obtain ⟨b, kept, same⟩ := ih member
    by_cases early : (key b == key c) = true
    · exact ⟨c, List.mem_cons_self, BEq.trans (BEq.symm early) same⟩
    · have late : (key b != key c) = true := by simpa [bne] using early
      exact ⟨b, List.mem_cons_of_mem _ (List.mem_filter.mpr ⟨kept, late⟩), same⟩

theorem firstBy_least [EquivBEq β] {R : α → α → Prop} (refl : ∀ a, R a a) (ordered : as.Pairwise R)
    {a b : α} (kept : b ∈ firstBy key as) (member : a ∈ as) (same : (key a == key b) = true) :
    R b a := by
  induction as with
  | nil => cases member
  | cons c as ih =>
    obtain ⟨before, ordered⟩ := List.pairwise_cons.mp ordered
    rcases List.mem_cons.mp kept with rfl | kept
    · rcases List.mem_cons.mp member with rfl | member
      · exact refl a
      · exact before a member
    · obtain ⟨kept, differs⟩ := List.mem_filter.mp kept
      rcases List.mem_cons.mp member with rfl | member
      · rw [bne, BEq.symm same] at differs
        cases differs
      · exact ih ordered kept member

end FirstBy

/-- The positions of the providers of each capability, in order. -/
structure CapabilityIndex where
  positions : Capability → List Nat

namespace CapabilityIndex

variable {ω : Type}

def empty : CapabilityIndex := ⟨fun _ => []⟩

def push (index : CapabilityIndex) (position : Nat) (c : Capability) : CapabilityIndex :=
  ⟨fun c' => if c' = c then index.positions c' ++ [position] else index.positions c'⟩

/-- The index with a position noted for every capability of the provider that stands there. -/
def note (index : CapabilityIndex) (entry : Provider ω × Nat) : CapabilityIndex :=
  (Capability.all.filter entry.1.has).foldl (·.push entry.2) index

def of (ps : List (Provider ω)) : CapabilityIndex := ps.zipIdx.foldl note empty

theorem positions_foldl_push {cs : List Capability} (distinct : cs.Nodup) (position : Nat)
    (index : CapabilityIndex) (c : Capability) :
    (cs.foldl (·.push position) index).positions c =
      index.positions c ++ if c ∈ cs then [position] else [] := by
  induction cs generalizing index with
  | nil => simp
  | cons c' cs ih =>
    obtain ⟨other, distinct⟩ := List.nodup_cons.mp distinct
    rw [List.foldl_cons, ih distinct, push]
    by_cases same : c = c'
    · simp [same, other]
    · simp [same]

theorem positions_note (index : CapabilityIndex) (entry : Provider ω × Nat) (c : Capability) :
    (index.note entry).positions c =
      index.positions c ++ if entry.1.has c then [entry.2] else [] := by
  have known : c ∈ Capability.all := by cases c <;> decide
  have distinct : (Capability.all.filter entry.1.has).Nodup :=
    List.Pairwise.filter _ (by decide : Capability.all.Nodup)
  rw [note, positions_foldl_push distinct]
  simp [List.mem_filter, known]

theorem positions_foldl_note (entries : List (Provider ω × Nat)) (index : CapabilityIndex)
    (c : Capability) :
    (entries.foldl note index).positions c =
      index.positions c ++ (entries.filter (·.1.has c)).map (·.2) := by
  induction entries generalizing index with
  | nil => simp
  | cons entry entries ih =>
    rw [List.foldl_cons, ih, positions_note]
    cases has : entry.1.has c <;> simp [has]

theorem map_positions_of (ps : List (Provider ω)) (c : Capability) :
    ((of ps).positions c).map (ps[·]?) = (ps.filter (·.has c)).map some := by
  have stands : ∀ entry ∈ ps.zipIdx.filter (·.1.has c), ps[entry.2]? = some entry.1 :=
    fun entry member => List.mem_zipIdx_iff_getElem?.mp (List.mem_filter.mp member).1
  calc ((of ps).positions c).map (ps[·]?)
      = ((ps.zipIdx.filter (·.1.has c)).map (·.2)).map (ps[·]?) := by
        rw [of, positions_foldl_note, empty, List.nil_append]
    _ = (ps.zipIdx.filter (·.1.has c)).map (some ·.1) := by
        rw [List.map_map]
        exact List.map_congr_left stands
    _ = ((ps.zipIdx.map (·.1)).filter (·.has c)).map some := by
        rw [List.filter_map, List.map_map]
        rfl
    _ = (ps.filter (·.has c)).map some := by rw [List.zipIdx_map_fst]

end CapabilityIndex

/-- Providers in the order of preference. -/
structure Registry (ω : Type) where
  providers : List (Provider ω)
  ordered : providers.Pairwise Provider.NoWorse
  distinct : providers.Pairwise fun p q => p.id ≠ q.id

namespace Registry

variable {ω : Type}

def sorted (ps : List (Provider ω)) : List (Provider ω) :=
  (ps.filter (!·.disabled)).mergeSort fun p q => (p.compare q).isLE

theorem pairwise_sorted (ps : List (Provider ω)) : (sorted ps).Pairwise Provider.NoWorse := by
  have ordered : (sorted ps).Pairwise fun p q => (p.compare q).isLE = true :=
    List.pairwise_mergeSort Provider.compare_isLE_trans Provider.compare_isLE_total _
  exact ordered.imp Provider.compare_isLE_iff.mp

/-- The registry of these providers. Of providers with one id the preferred one is kept. -/
def of (ps : List (Provider ω)) : Registry ω where
  providers := firstBy (·.id) (sorted ps)
  ordered := (pairwise_sorted ps).sublist firstBy_sublist
  distinct := firstBy_distinct.imp fun differs => (bne_iff_ne.mp differs).symm

theorem eq_of_id {r : Registry ω} {p q : Provider ω} (one : p ∈ r.providers)
    (two : q ∈ r.providers) (same : p.id = q.id) : p = q :=
  List.Pairwise.forall_of_forall_of_flip (R := fun p q => p.id = q.id → p = q)
    (fun _ _ _ => rfl) (r.distinct.imp fun differs same => absurd same differs)
    (r.distinct.imp fun differs same => absurd same.symm differs) one two same

theorem eq_of_providers {r s : Registry ω} (same : r.providers = s.providers) : r = s := by
  cases r
  cases s
  cases same
  rfl

theorem mem_sorted {ps : List (Provider ω)} {p : Provider ω} :
    p ∈ sorted ps ↔ p ∈ ps ∧ p.disabled = false := by
  rw [sorted, List.mem_mergeSort, List.mem_filter, Bool.not_eq_true']

def isEmpty (r : Registry ω) : Bool := r.providers.isEmpty

def get? (r : Registry ω) (id : String) : Option (Provider ω) :=
  r.providers.find? (·.id == id)

def index (r : Registry ω) : CapabilityIndex := .of r.providers

def having (r : Registry ω) (c : Capability) : List (Provider ω) :=
  (r.index.positions c).filterMap (r.providers[·]?)

theorem having_eq (r : Registry ω) (c : Capability) :
    r.having c = r.providers.filter (·.has c) := by
  have stand := congrArg (List.filterMap id) (CapabilityIndex.map_positions_of r.providers c)
  simpa [having, index, List.filterMap_map, Function.comp_def] using stand

theorem having_sublist {r : Registry ω} {c : Capability} : (r.having c).Sublist r.providers :=
  r.having_eq c ▸ List.filter_sublist

def direct (r : Registry ω) (c : Capability) : List (Provider ω) :=
  (r.having c).filter (·.direct)

def onNetwork (r : Registry ω) (n : Network) (c : Capability) : List (Provider ω) :=
  (r.having c).filter (·.network == n)

def preferred? (r : Registry ω) (n : Network) (c : Capability) : Option (Provider ω) :=
  (r.having c).find? (·.network == n)

def networks (r : Registry ω) : List Network := firstBy id (r.providers.map (·.network))

def toJson (r : Registry ω) : Json :=
  .ofMembers
    [("providers", .arr (r.providers.map Provider.toJson)),
     ("networks", .arr (r.networks.map Network.toJson)), ("empty", .bool r.isEmpty)]

end Registry

end PriceDesk
