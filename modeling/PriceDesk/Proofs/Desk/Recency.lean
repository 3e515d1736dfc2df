import Mathlib.Data.List.DropRight
import Mathlib.Data.List.Pairwise
import PriceDesk.Desk.LastResults

namespace PriceDesk

namespace Completion

def Apart (c d : Completion) : Prop := (c.key == d.key) = false

def latest : List Completion → List Completion
  | [] => []
  | c :: cs => if cs.any (·.key == c.key) then latest cs else c :: latest cs

def recent (capacity : Nat) (cs : List Completion) : List Completion := (latest cs).rtake capacity

/-- A completion is the latest of its request, and these came after it. -/
structure Stands (cs : List Completion) (c : Completion) (since : List Completion) : Prop where
  there : ∃ before, cs = before ++ c :: since
  others : ∀ x ∈ since, x.Apart c

variable {cs since : List Completion} {c d : Completion}

theorem apart_iff : c.Apart d ↔ ¬ (c.key == d.key) = true := Bool.eq_false_iff

theorem bne_key_iff : (c.key != d.key) = true ↔ c.Apart d := by simp [Apart, bne]

theorem Apart.symm (apart : c.Apart d) : d.Apart c :=
  apart_iff.mpr fun same => apart_iff.mp apart (BEq.symm same)

instance : Std.Symm Apart := ⟨fun _ _ => Apart.symm⟩

theorem not_apart_self : ¬ c.Apart c := fun apart => apart_iff.mp apart BEq.rfl

theorem latest_sublist (cs : List Completion) : (latest cs).Sublist cs := by
  induction cs with
  | nil => exact .slnil
  | cons c cs ih =>
    rw [latest]
    split
    · exact ih.cons c
    · exact ih.cons_cons c

theorem latest_apart (cs : List Completion) :
    (latest cs).Pairwise Apart := by
  induction cs with
  | nil => exact .nil
  | cons c cs ih =>
    rw [latest]
    split
    · exact ih
    next none =>
    refine List.pairwise_cons.mpr ⟨fun d later => ?_, ih⟩
    rw [List.any_eq_true] at none
    apply Apart.symm
    apply apart_iff.mpr
    exact fun same => none ⟨d, (latest_sublist cs).subset later, same⟩

theorem latest_concat (cs : List Completion) (c : Completion) :
    latest (cs ++ [c]) = (latest cs).filter (·.key != c.key) ++ [c] := by
  induction cs with
  | nil => simp [latest]
  | cons d cs ih =>
    rw [List.cons_append, latest, latest, List.any_append, ih]
    by_cases again : (c.key == d.key) = true
    · have same : (d.key != c.key) = false := by simp [bne, BEq.symm again]
      have one : [c].any (·.key == d.key) = true := by simp [again]
      rw [one, Bool.or_true, if_pos rfl]
      split
      · rfl
      · rw [List.filter_cons_of_neg (by simp [same])]
    · have other : (d.key != c.key) = true := bne_key_iff.mpr (apart_iff.mpr again).symm
      have one : [c].any (·.key == d.key) = false := by simpa using again
      rw [one, Bool.or_false]
      split
      · rfl
      · rw [List.filter_cons, if_pos other, List.cons_append]

theorem Stands.split (stands : Stands cs c since) :
    ∃ earlier, latest cs = earlier ++ c :: latest since := by
  obtain ⟨⟨before, rfl⟩, others⟩ := stands
  induction before with
  | nil =>
    refine ⟨[], ?_⟩
    rw [List.nil_append, latest, if_neg, List.nil_append]
    rw [List.any_eq_true]
    rintro ⟨x, later, same⟩
    exact apart_iff.mp (others x later) same
  | cons d before ih =>
    obtain ⟨earlier, split⟩ := ih
    rw [List.cons_append, latest, split]
    split
    · exact ⟨earlier, rfl⟩
    · exact ⟨d :: earlier, rfl⟩

theorem stands_of_mem (member : c ∈ latest cs) : ∃ since, Stands cs c since := by
  induction cs with
  | nil => cases member
  | cons d cs ih =>
    have later (member : c ∈ latest cs) : ∃ since, Stands (d :: cs) c since := by
      obtain ⟨since, ⟨before, rfl⟩, others⟩ := ih member
      exact ⟨since, ⟨d :: before, rfl⟩, others⟩
    rw [latest] at member
    split at member
    · exact later member
    next none =>
    rcases List.mem_cons.mp member with rfl | member
    · rw [List.any_eq_true] at none
      refine ⟨cs, ⟨[], rfl⟩, fun x after => ?_⟩
      apply apart_iff.mpr
      exact fun same => none ⟨x, after, same⟩
    · exact later member

theorem Stands.since_eq {since' : List Completion} (stands : Stands cs c since)
    (also : Stands cs d since') (same : (c.key == d.key) = true) : since = since' := by
  obtain ⟨⟨before, rfl⟩, others⟩ := stands
  obtain ⟨⟨before', split⟩, others'⟩ := also
  rcases List.append_eq_append_iff.mp split with ⟨between, _, rest⟩ | ⟨between, _, rest⟩
  · cases between with
    | nil => exact (List.cons.inj rest).2
    | cons x between =>
      obtain ⟨_, rfl⟩ := List.cons.inj rest
      have later := others d (List.mem_append_right _ List.mem_cons_self)
      exact absurd (BEq.symm same) (apart_iff.mp later)
  · cases between with
    | nil => exact (List.cons.inj rest).2.symm
    | cons x between =>
      obtain ⟨_, rfl⟩ := List.cons.inj rest
      have later := others' c (List.mem_append_right _ List.mem_cons_self)
      exact absurd same (apart_iff.mp later)

theorem exists_stands {key : RequestKey} (completed : ∃ x ∈ cs, (x.key == key) = true) :
    ∃ c since, Stands cs c since ∧ (c.key == key) = true := by
  suffices ∃ c ∈ latest cs, (c.key == key) = true by
    obtain ⟨c, member, same⟩ := this
    obtain ⟨since, stands⟩ := stands_of_mem member
    exact ⟨c, since, stands, same⟩
  induction cs with
  | nil => simp at completed
  | cons d cs ih =>
    by_cases later : ∃ x ∈ cs, (x.key == key) = true
    · obtain ⟨c, member, same⟩ := ih later
      refine ⟨c, ?_, same⟩
      rw [latest]
      split
      · exact member
      · exact List.mem_cons_of_mem d member
    · obtain ⟨x, member, same⟩ := completed
      rcases List.mem_cons.mp member with rfl | member
      · refine ⟨x, ?_, same⟩
        rw [latest, if_neg]
        · exact List.mem_cons_self
        · rw [List.any_eq_true]
          rintro ⟨y, after, again⟩
          exact later ⟨y, after, BEq.trans again same⟩
      · exact absurd ⟨x, member, same⟩ later

theorem mem_recent_iff {capacity : Nat} : c ∈ recent capacity cs ↔
    ∃ since, Stands cs c since ∧ (latest since).length < capacity := by
  have kept {since : List Completion} (stands : Stands cs c since) :
      c ∈ recent capacity cs ↔ (latest since).length < capacity := by
    obtain ⟨earlier, split⟩ := stands.split
    have once : c ∉ latest since := fun again =>
      not_apart_self (stands.others c ((latest_sublist since).subset again))
    rw [recent, List.rtake, split, List.drop_append]
    simp only [List.length_append, List.length_cons]
    by_cases few : (latest since).length < capacity
    · have front :
          earlier.length + ((latest since).length + 1) - capacity - earlier.length = 0 := by
        omega
      rw [front]
      exact iff_of_true (List.mem_append_right _ List.mem_cons_self) few
    · refine iff_of_false ?_ few
      obtain ⟨n, behind⟩ : ∃ n,
          earlier.length + ((latest since).length + 1) - capacity - earlier.length = n + 1 :=
        ⟨(latest since).length - capacity, by omega⟩
      rw [behind, List.drop_succ_cons, List.drop_eq_nil_of_le (by omega), List.nil_append]
      exact fun member => once (List.mem_of_mem_drop member)
  constructor
  · intro member
    obtain ⟨since, stands⟩ := stands_of_mem (List.mem_of_mem_drop member)
    exact ⟨since, stands, (kept stands).mp member⟩
  · rintro ⟨since, stands, few⟩
    exact (kept stands).mpr few

theorem recent_apart (capacity : Nat) (cs : List Completion) :
    (recent capacity cs).Pairwise Apart :=
  (latest_apart cs).sublist (List.drop_sublist _ _)

theorem length_le_filter {kept : List Completion} (apart : kept.Pairwise Apart)
    (key : RequestKey) : kept.length ≤ (kept.filter (·.key != key)).length + 1 := by
  induction kept with
  | nil => exact Nat.zero_le _
  | cons c kept ih =>
    obtain ⟨differ, apart⟩ := List.pairwise_cons.mp apart
    by_cases same : (c.key == key) = true
    · have all : kept.filter (·.key != key) = kept := by
        apply List.filter_eq_self.mpr
        intro d member
        rw [bne, Bool.not_eq_true', Bool.eq_false_iff]
        intro also
        exact apart_iff.mp (differ d member) (BEq.trans same (BEq.symm also))
      rw [List.filter_cons_of_neg (by simp [bne, same]), all, List.length_cons]
    · rw [List.filter_cons_of_pos (by simpa [bne] using same), List.length_cons, List.length_cons]
      exact Nat.succ_le_succ (ih apart)

/-- A completion comes to the recent ones in place of an earlier one of its request, and of the
oldest one if there is no more room. -/
theorem recent_concat (capacity : Nat) (cs : List Completion) (c : Completion) :
    recent capacity (cs ++ [c]) =
      ((recent capacity cs).filter (·.key != c.key) ++ [c]).rtake capacity := by
  rw [recent, recent, latest_concat]
  cases capacity with
  | zero => simp
  | succ n =>
    rw [List.rtake_concat_succ, List.rtake_concat_succ]
    congr 1
    have apart := recent_apart (n + 1) cs
    obtain ⟨earlier, split⟩ : ∃ earlier, latest cs = earlier ++ (latest cs).rtake (n + 1) :=
      ⟨_, (List.take_append_drop _ _).symm⟩
    have enough : earlier = [] ∨
        n ≤ (((latest cs).rtake (n + 1)).filter (·.key != c.key)).length := by
      by_cases few : (latest cs).length ≤ n + 1
      · left
        have whole := congrArg List.length split
        simp only [List.rtake, List.length_append, List.length_drop] at whole
        apply List.eq_nil_of_length_eq_zero
        omega
      · right
        have most := length_le_filter apart c.key
        simp only [recent, List.rtake, List.length_drop] at most ⊢
        omega
    generalize (latest cs).rtake (n + 1) = kept at split enough
    rw [split, List.filter_append]
    rcases enough with rfl | enough
    · rfl
    · rw [List.rtake, List.rtake, List.length_append, List.drop_append,
        List.drop_eq_nil_of_le (by omega), List.nil_append]
      congr 1
      omega

end Completion

namespace LastResults

open Completion

variable {l : LastResults} {kept cs : List Completion} {c : Completion} {key : RequestKey}

/-- The table has the completions that are kept, and the order names their requests. -/
structure Keeps (l : LastResults) (kept : List Completion) : Prop where
  entries : l.entries.Perm kept
  order : l.order = kept.map (·.key)
  apart : kept.Pairwise Apart

def of (capacity : Nat) (cs : List Completion) : LastResults := cs.foldl insert { capacity }

theorem makeRoom_eq (capacity : Nat) {entries : List Completion} (same : entries.Perm kept)
    (apart : kept.Pairwise Apart) : ∃ rest,
      makeRoom capacity (kept.map (·.key)) entries =
        ((kept.rtake capacity).map (·.key), rest) ∧ rest.Perm (kept.rtake capacity) := by
  induction kept generalizing entries with
  | nil => exact ⟨entries, by simp [makeRoom], by simpa using same⟩
  | cons c kept ih =>
    have count := same.length_eq
    rw [List.length_cons] at count
    rw [List.map_cons, makeRoom]
    split
    next full =>
      obtain ⟨differ, apart⟩ := List.pairwise_cons.mp apart
      have own : erase c.key (c :: kept) = kept := by
        rw [erase, List.filter_cons_of_neg (by simp [bne])]
        apply List.filter_eq_self.mpr
        exact fun d member => bne_key_iff.mpr (differ d member).symm
      have rest : (c :: kept).rtake capacity = kept.rtake capacity := by
        have more : (c :: kept).length - capacity = (kept.length - capacity) + 1 := by
          rw [List.length_cons]
          omega
        rw [List.rtake, List.rtake, more, List.drop_succ_cons]
      rw [rest]
      apply ih _ apart
      have filtered := same.filter (·.key != c.key)
      rw [← erase, ← erase, own] at filtered
      exact filtered
    next room =>
      have all : (c :: kept).rtake capacity = c :: kept := by
        rw [List.rtake, List.length_cons, Nat.sub_eq_zero_of_le (by omega), List.drop_zero]
      rw [all]
      exact ⟨entries, rfl, same⟩

theorem Keeps.get?_eq_some_iff (keeps : l.Keeps kept) :
    l.get? key = some c ↔ c ∈ kept ∧ (c.key == key) = true := by
  constructor
  · intro found
    rw [get?] at found
    have same := List.find?_some found
    exact ⟨keeps.entries.subset (List.mem_of_find?_eq_some found), same⟩
  · rintro ⟨member, same⟩
    have known : (l.get? key).isSome = true := by
      rw [get?, List.find?_isSome]
      exact ⟨c, keeps.entries.symm.subset member, same⟩
    obtain ⟨d, found⟩ := Option.isSome_iff_exists.mp known
    by_contra other
    have differ : c ≠ d := by
      rintro rfl
      exact other found
    rw [get?] at found
    have there := keeps.entries.subset (List.mem_of_find?_eq_some found)
    have also := List.find?_some found
    exact apart_iff.mp (keeps.apart.forall member there differ) (BEq.trans same (BEq.symm also))

theorem Keeps.insert (keeps : l.Keeps kept) (c : Completion) :
    (l.insert c).Keeps ((kept.filter (·.key != c.key) ++ [c]).rtake l.capacity) := by
  have order : (if (l.get? c.key).isSome then l.order.filter (· != c.key) else l.order) ++ [c.key] =
      (kept.filter (·.key != c.key) ++ [c]).map (·.key) := by
    have others : l.order.filter (· != c.key) = (kept.filter (·.key != c.key)).map (·.key) := by
      rw [keeps.order, List.filter_map]
      rfl
    rw [List.map_append, ← others]
    split
    · rfl
    next unknown =>
      -- A request that has no entry is not in the order, so that there is nothing to take out.
      rw [List.filter_eq_self.mpr]
      · rfl
      · intro k member
        rw [keeps.order, List.mem_map] at member
        obtain ⟨d, there, rfl⟩ := member
        rw [bne, Bool.not_eq_true', Bool.eq_false_iff]
        intro same
        exact unknown (Option.isSome_of_eq_some (keeps.get?_eq_some_iff.mpr ⟨there, same⟩))
  have entries : (c :: erase c.key l.entries).Perm (kept.filter (·.key != c.key) ++ [c]) :=
    ((keeps.entries.filter _).cons c).trans (List.perm_append_singleton c _).symm
  have apart : (kept.filter (·.key != c.key) ++ [c]).Pairwise Apart := by
    apply List.pairwise_append.mpr
    refine ⟨keeps.apart.sublist List.filter_sublist, List.pairwise_singleton _ _, ?_⟩
    intro d member e here
    rw [List.mem_singleton] at here
    subst here
    exact bne_key_iff.mp (List.mem_filter.mp member).2
  obtain ⟨rest, made, table⟩ := makeRoom_eq l.capacity entries apart
  have inserted : l.insert c =
      { l with
        order := ((kept.filter (·.key != c.key) ++ [c]).rtake l.capacity).map (·.key)
        entries := rest } := by
    simp only [LastResults.insert]
    rw [order, made]
  rw [inserted]
  exact ⟨table, rfl, apart.sublist (List.drop_sublist _ _)⟩

theorem capacity_insert (l : LastResults) (c : Completion) :
    (l.insert c).capacity = l.capacity :=
  rfl

theorem of_concat (capacity : Nat) (cs : List Completion) (c : Completion) :
    of capacity (cs ++ [c]) = (of capacity cs).insert c := List.foldl_concat ..

theorem capacity_of (capacity : Nat) (cs : List Completion) :
    (of capacity cs).capacity = capacity := by
  induction cs using List.reverseRecOn with
  | nil => rfl
  | append_singleton cs c ih => rw [of_concat, capacity_insert, ih]

theorem of_keeps (capacity : Nat) (cs : List Completion) :
    (of capacity cs).Keeps (recent capacity cs) := by
  induction cs using List.reverseRecOn with
  | nil =>
    rw [recent, latest, List.rtake_nil]
    exact ⟨.refl [], rfl, .nil⟩
  | append_singleton cs c ih =>
    rw [of_concat, recent_concat]
    have next := ih.insert c
    rw [capacity_of] at next
    exact next

theorem get?_of_eq_some_iff {capacity : Nat} : (of capacity cs).get? key = some c ↔
    ∃ since, Stands cs c since ∧ (c.key == key) = true ∧ (latest since).length < capacity := by
  rw [(of_keeps capacity cs).get?_eq_some_iff, mem_recent_iff]
  constructor
  · rintro ⟨⟨since, stands, few⟩, same⟩
    exact ⟨since, stands, same, few⟩
  · rintro ⟨since, stands, same, few⟩
    exact ⟨⟨since, stands, few⟩, same⟩

theorem get?_of_eq_none_iff {capacity : Nat} : (of capacity cs).get? key = none ↔
    (∀ x ∈ cs, (x.key == key) = false) ∨
      ∃ c since, Stands cs c since ∧ (c.key == key) = true ∧ capacity ≤ (latest since).length := by
  constructor
  · intro none
    by_cases completed : ∃ x ∈ cs, (x.key == key) = true
    · obtain ⟨c, since, stands, same⟩ := exists_stands completed
      refine .inr ⟨c, since, stands, same, Nat.le_of_not_lt fun few => ?_⟩
      rw [get?_of_eq_some_iff.mpr ⟨since, stands, same, few⟩] at none
      cases none
    · left
      intro x member
      rw [Bool.eq_false_iff]
      exact fun same => completed ⟨x, member, same⟩
  · intro lost
    by_contra known
    obtain ⟨d, found⟩ := Option.ne_none_iff_exists'.mp known
    obtain ⟨since', stands', same', few⟩ := get?_of_eq_some_iff.mp found
    rcases lost with never | ⟨c, since, stands, same, many⟩
    · obtain ⟨⟨before, rfl⟩, _⟩ := stands'
      rw [never d (List.mem_append_right _ List.mem_cons_self)] at same'
      cases same'
    · cases stands.since_eq stands' (BEq.trans same (BEq.symm same'))
      exact absurd few (Nat.not_lt_of_le many)

/-- What there is of a sequence of completions, where there is room for so many requests. -/
structure Recalls (l : LastResults) (capacity : Nat) (cs : List Completion) : Prop where
  /-- The order names the requests that completed last, as many as there is room for, from the one
  that completed longest ago to the one that completed last. -/
  order : l.order = (recent capacity cs).map (·.key)
  inTime : (recent capacity cs).Sublist cs
  room : l.order.length = min capacity (latest cs).length
  once : l.order.Pairwise fun k k' => (k == k') = false
  entries : l.entries.Perm (recent capacity cs)
  found : ∀ key c, l.get? key = some c ↔
    ∃ since, Stands cs c since ∧ (c.key == key) = true ∧ (latest since).length < capacity
  missing : ∀ key, l.get? key = none ↔ (∀ x ∈ cs, (x.key == key) = false) ∨
    ∃ c since, Stands cs c since ∧ (c.key == key) = true ∧ capacity ≤ (latest since).length

theorem of_recalls (capacity : Nat) (cs : List Completion) :
    (of capacity cs).Recalls capacity cs := by
  have keeps := of_keeps capacity cs
  constructor
  case order => exact keeps.order
  case inTime => exact (List.drop_sublist _ _).trans (latest_sublist cs)
  case room =>
    rw [keeps.order, List.length_map, recent, List.rtake, List.length_drop]
    omega
  case once =>
    rw [keeps.order, List.pairwise_map]
    exact keeps.apart
  case entries => exact keeps.entries
  case found => exact fun _ _ => get?_of_eq_some_iff
  case missing => exact fun _ => get?_of_eq_none_iff

theorem get?_insert {capacity : Nat} (room : 0 < capacity) (same : (c.key == key) = true) :
    ((of capacity cs).insert c).get? key = some c := by
  rw [← of_concat]
  exact get?_of_eq_some_iff.mpr ⟨[], ⟨⟨cs, rfl⟩, List.forall_mem_nil _⟩, same, room⟩

end LastResults

end PriceDesk
