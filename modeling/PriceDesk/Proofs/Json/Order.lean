import PriceDesk.Json.Document
import PriceDesk.Json.Pointer

namespace PriceDesk.Json

def Ascending (members : List (String × Json)) : Prop := members.Pairwise (·.1 < ·.1)

inductive Ordered : Json → Prop
  | null : Ordered .null
  | bool (b : Bool) : Ordered (.bool b)
  | num (n : Number) : Ordered (.num n)
  | str (s : String) : Ordered (.str s)
  | arr {items : List Json} (each : ∀ item ∈ items, Ordered item) : Ordered (.arr items)
  | obj {members : List (String × Json)} (ascending : Ascending members)
    (each : ∀ m ∈ members, Ordered m.2) : Ordered (.obj members)

variable {key : String} {value v : Json} {members : List (String × Json)} {m : String × Json}

theorem mem_insertMember (there : m ∈ insertMember key value members) :
    m = (key, value) ∨ m ∈ members := by
  induction members with
  | nil => exact .inl (List.mem_singleton.mp there)
  | cons first rest ih =>
    obtain ⟨k, w⟩ := first
    rw [insertMember] at there
    split at there
    · exact List.mem_cons.mp there
    · split at there
      · exact (List.mem_cons.mp there).imp_right (List.mem_cons_of_mem _)
      · rcases List.mem_cons.mp there with here | later
        · exact .inr (here ▸ List.mem_cons_self)
        · exact (ih later).imp_right (List.mem_cons_of_mem _)

theorem ascending_insertMember (ascending : Ascending members) :
    Ascending (insertMember key value members) := by
  induction members with
  | nil => exact List.pairwise_singleton _ _
  | cons first rest ih =>
    obtain ⟨k, w⟩ := first
    obtain ⟨above, tail⟩ := List.pairwise_cons.mp ascending
    rw [insertMember]
    split
    · next less =>
      refine List.pairwise_cons.mpr ⟨fun m there => ?_, ascending⟩
      rcases List.mem_cons.mp there with rfl | later
      · exact less
      · exact String.lt_trans less (above m later)
    · next notLess =>
      split
      · next same =>
        rw [← beq_iff_eq.mp same] at above
        exact List.pairwise_cons.mpr ⟨above, tail⟩
      · next other =>
        have greater : k < key := by
          refine String.not_le.mp fun le => other ?_
          exact beq_iff_eq.mpr (String.le_antisymm le (String.not_lt.mp notLess))
        refine List.pairwise_cons.mpr ⟨fun m there => ?_, ih tail⟩
        rcases mem_insertMember there with rfl | later
        · exact greater
        · exact above m later

theorem Ordered.foldl_insertMember {before : List (String × Json)}
    (ordered : (Json.obj before).Ordered) (each : ∀ m ∈ members, m.2.Ordered) :
    (Json.obj (members.foldl (fun ms (k, v) => insertMember k v ms) before)).Ordered := by
  induction members generalizing before with
  | nil => exact ordered
  | cons first rest ih =>
    cases ordered with
    | obj ascending sound =>
      refine ih (.obj (ascending_insertMember ascending) fun m there => ?_)
        fun m later => each m (List.mem_cons_of_mem _ later)
      rcases mem_insertMember there with rfl | earlier
      · exact each _ List.mem_cons_self
      · exact sound m earlier

theorem ordered_ofMembers (each : ∀ m ∈ members, m.2.Ordered) : (ofMembers members).Ordered :=
  Ordered.foldl_insertMember (.obj .nil (List.forall_mem_nil _)) each

namespace Document

mutual

theorem ordered_value? (depth : Nat) (d : Document) (v : Json) (read : d.value? depth = some v) :
    v.Ordered := by
  match d with
  | .null =>
    cases read
    exact .null
  | .bool b =>
    cases read
    exact .bool b
  | .numeral n =>
    obtain ⟨number, -, rfl⟩ := Option.map_eq_some_iff.mp read
    exact .num number
  | .text s =>
    obtain ⟨text, -, rfl⟩ := Option.map_eq_some_iff.mp read
    exact .str text
  | .array items =>
    rw [value?] at read
    split at read
    · cases read
    · obtain ⟨values, each, rfl⟩ := Option.map_eq_some_iff.mp read
      exact .arr (ordered_itemValues? _ items values each)
  | .object members =>
    rw [value?] at read
    split at read
    · cases read
    · obtain ⟨values, each, rfl⟩ := Option.map_eq_some_iff.mp read
      exact ordered_ofMembers (ordered_memberValues? _ members values each)

theorem ordered_itemValues? (depth : Nat) (items : List Document) (values : List Json)
    (read : itemValues? depth items = some values) : ∀ v ∈ values, v.Ordered := by
  match items with
  | [] =>
    cases read
    exact nofun
  | item :: rest =>
    obtain ⟨first, readFirst, others⟩ := Option.bind_eq_some_iff.mp read
    obtain ⟨later, readLater, whole⟩ := Option.bind_eq_some_iff.mp others
    cases whole
    exact List.forall_mem_cons.mpr
      ⟨ordered_value? depth item first readFirst, ordered_itemValues? depth rest later readLater⟩

theorem ordered_memberValues? (depth : Nat) (members : List (Option String × Document))
    (values : List (String × Json)) (read : memberValues? depth members = some values) :
    ∀ m ∈ values, m.2.Ordered := by
  match members with
  | [] =>
    cases read
    exact nofun
  | (key, value) :: rest =>
    obtain ⟨name, -, others⟩ := Option.bind_eq_some_iff.mp read
    obtain ⟨first, readFirst, others⟩ := Option.bind_eq_some_iff.mp others
    obtain ⟨later, readLater, whole⟩ := Option.bind_eq_some_iff.mp others
    cases whole
    exact List.forall_mem_cons.mpr
      ⟨ordered_value? depth value first readFirst,
        ordered_memberValues? depth rest later readLater⟩

end

end Document

theorem ordered_ofText? {text : String} (read : Json.ofText? text = some v) : v.Ordered := by
  obtain ⟨document, -, value⟩ := Option.bind_eq_some_iff.mp read
  exact document.ordered_value? maxDepth v value

theorem Ordered.step {token : String} (ordered : v.Ordered)
    (found : Pointer.step v token = some value) : value.Ordered := by
  cases ordered with
  | null | bool _ | num _ | str _ => cases found
  | arr each =>
    obtain ⟨i, -, element⟩ := Option.bind_eq_some_iff.mp found
    exact each _ (List.mem_of_getElem? element)
  | obj _ each =>
    obtain ⟨before, after, rfl, -⟩ := List.lookup_eq_some_iff.mp found
    exact each (token, value) (List.mem_append_right _ List.mem_cons_self)

theorem Ordered.foldlM_step {tokens : List String} (ordered : v.Ordered)
    (found : tokens.foldlM Pointer.step v = some value) : value.Ordered := by
  induction tokens generalizing v with
  | nil =>
    cases found
    exact ordered
  | cons token tokens ih =>
    rw [List.foldlM_cons] at found
    obtain ⟨next, first, rest⟩ := Option.bind_eq_some_iff.mp found
    exact ih (ordered.step first) rest

theorem Ordered.select? {pointer : String} (ordered : v.Ordered)
    (found : Pointer.select? v pointer = some value) : value.Ordered := by
  unfold Pointer.select? at found
  split at found
  · cases found
    exact ordered
  · exact ordered.foldlM_step found
  · cases found

end PriceDesk.Json
