import PriceDesk.Rest.Payload

namespace PriceDesk.Payload

open Json

def trail (location : String) : List String :=
  match location.toList with
  | '/' :: rest => (rest.splitOn '/').map Pointer.decode
  | _ => [location]

theorem trail_ne_nil (location : String) : trail location ≠ [] := by
  unfold trail
  split
  · simp [List.splitOn_ne_nil]
  · simp

def follow (value : Json) (tokens : List String) : Option Json := tokens.foldlM Pointer.step value

@[simp] theorem follow_nil (value : Json) : follow value [] = some value := rfl

@[simp] theorem follow_cons (value : Json) (token : String) (tokens : List String) :
    follow value (token :: tokens) = (Pointer.step value token).bind (follow · tokens) := rfl

theorem follow_append (value : Json) (p q : List String) :
    follow value (p ++ q) = (follow value p).bind (follow · q) := by
  induction p generalizing value with
  | nil => rfl
  | cons token p ih =>
    rw [List.cons_append, follow_cons, follow_cons, Option.bind_assoc]
    exact congrArg _ (funext fun part => ih part)

theorem field_obj (members : List (String × Json)) (location : String) :
    field (.obj members) location = follow (.obj members) (trail location) := by
  unfold field trail
  split
  · rename_i rest starts
    simp [Pointer.select?, starts, follow]
  · simp [get?, Pointer.step]

theorem follow_of_field {entry value : Json} {location : String}
    (found : field entry location = some value) : follow entry (trail location) = some value := by
  unfold field at found
  unfold trail
  split at found
  · rename_i rest starts
    simpa [Pointer.select?, starts, follow] using found
  · cases entry with
    | obj members => simpa [get?, Pointer.step] using found
    | null | bool _ | num _ | str _ | arr _ => simp [get?] at found

def Bare (value : Json) : Prop := ∀ token, Pointer.step value token = none

theorem bare_of_str? {value : Json} {text : String} (read : value.str? = some text) :
    Bare value := by
  cases value with
  | str _ => exact fun _ => rfl
  | null | bool _ | num _ | arr _ | obj _ => simp [str?] at read

theorem bare_of_decimal {value : Json} {d : Decimal} (read : decimal value = some d) :
    Bare value := by
  cases value with
  | str _ | num _ => exact fun _ => rfl
  | null | bool _ | arr _ | obj _ => simp [decimal] at read

theorem Bare.follow {value part : Json} {tokens : List String} (bare : Bare value)
    (found : follow value tokens = some part) : tokens = [] := by
  cases tokens with
  | nil => rfl
  | cons token tokens => simp [bare token] at found

theorem field_str (text location : String) : field (.str text) location = none := by
  cases found : field (.str text) location with
  | none => rfl
  | some part =>
    exact absurd ((bare_of_str? rfl).follow (follow_of_field found)) (trail_ne_nil location)

def Apart (p q : List String) : Prop := ¬ p <+: q ∧ ¬ q <+: p

theorem Bare.eq_of_isPrefix {entry u v : Json} {p q : List String} (bare : Bare u)
    (first : Payload.follow entry p = some u) (second : Payload.follow entry q = some v)
    (leads : p <+: q) : p = q := by
  obtain ⟨rest, rfl⟩ := leads
  rw [follow_append, first, Option.bind_some] at second
  rw [bare.follow second, List.append_nil]

theorem apart_of_bare {entry u v : Json} {p q : List String} (bareFirst : Bare u)
    (bareSecond : Bare v) (first : follow entry p = some u) (second : follow entry q = some v) :
    p = q ∨ Apart p q := by
  by_cases leads : p <+: q
  · exact .inl (bareFirst.eq_of_isPrefix first second leads)
  · by_cases back : q <+: p
    · exact .inl (bareSecond.eq_of_isPrefix second first back).symm
    · exact .inr ⟨leads, back⟩

def nest (p : List String) (value : Json) : Json :=
  p.foldr (fun token inner => .ofMembers [(token, inner)]) value

theorem follow_nest (p : List String) (value : Json) : follow (nest p value) p = some value := by
  induction p with
  | nil => rfl
  | cons token p ih =>
    have inner : Pointer.step (nest (token :: p) value) token = some (nest p value) := by
      simp [nest, ofMembers, insertMember, Pointer.step]
    rw [follow_cons, inner, Option.bind_some, ih]

def hold : List String → Json → List String → Json → Json
  | s :: p, u, t :: q, v =>
    if s = t then .ofMembers [(s, hold p u q v)] else .ofMembers [(s, nest p u), (t, nest q v)]
  | _, u, _, _ => u

theorem step_pair {s t : String} (differ : s ≠ t) (u v : Json) :
    Pointer.step (.ofMembers [(s, u), (t, v)]) s = some u ∧
      Pointer.step (.ofMembers [(s, u), (t, v)]) t = some v := by
  have forth : (s == t) = false := by simp [differ]
  have back : (t == s) = false := by simp [differ.symm]
  by_cases before : t < s
  · simp [ofMembers, insertMember, Pointer.step, before, List.lookup_cons, forth]
  · simp [ofMembers, insertMember, Pointer.step, before, List.lookup_cons, back]

theorem follow_hold {p q : List String} (apart : Apart p q) (u v : Json) :
    follow (hold p u q v) p = some u ∧ follow (hold p u q v) q = some v := by
  induction p generalizing q with
  | nil => exact absurd List.nil_prefix apart.1
  | cons s p ih =>
    cases q with
    | nil => exact absurd List.nil_prefix apart.2
    | cons t q =>
      by_cases same : s = t
      · subst same
        have inner : Apart p q := by simpa [Apart, List.cons_prefix_cons] using apart
        have entered : Pointer.step (hold (s :: p) u (s :: q) v) s = some (hold p u q v) := by
          simp [hold, ofMembers, insertMember, Pointer.step]
        rw [follow_cons, follow_cons, entered]
        exact ih inner
      · have held : hold (s :: p) u (t :: q) v = .ofMembers [(s, nest p u), (t, nest q v)] :=
          if_neg same
        rw [held, follow_cons, follow_cons, (step_pair same _ _).1, (step_pair same _ _).2]
        exact ⟨follow_nest p u, follow_nest q v⟩

theorem hold_eq_obj {p q : List String} (apart : Apart p q) (u v : Json) :
    ∃ members, hold p u q v = .obj members := by
  cases p with
  | nil => exact absurd List.nil_prefix apart.1
  | cons s p =>
    cases q with
    | nil => exact absurd List.nil_prefix apart.2
    | cons t q =>
      rw [hold]
      split <;> exact ⟨_, rfl⟩

theorem nest_eq_obj {p : List String} (leads : p ≠ []) (value : Json) :
    ∃ members, nest p value = .obj members := by
  cases p with
  | nil => exact absurd rfl leads
  | cons token p => exact ⟨_, rfl⟩

theorem exists_field (location : String) (value : Json) :
    ∃ members, field (.obj members) location = some value := by
  obtain ⟨members, shape⟩ := nest_eq_obj (trail_ne_nil location) value
  refine ⟨members, ?_⟩
  rw [field_obj, ← shape, follow_nest]

theorem exists_fields {first second : String} (apart : Apart (trail first) (trail second))
    (u v : Json) :
    ∃ members, field (.obj members) first = some u ∧ field (.obj members) second = some v := by
  obtain ⟨members, shape⟩ := hold_eq_obj apart u v
  refine ⟨members, ?_⟩
  rw [field_obj, field_obj, ← shape]
  exact follow_hold apart u v

def isPointer : Option String → Bool
  | some text => text.toList.head?.all (· == '/')
  | none => true

theorem isPointer_of_select {payload part : Json} {pointer : Option String}
    (found : select payload pointer = some part) : isPointer pointer = true := by
  cases pointer with
  | none => rfl
  | some text =>
    have chosen : Pointer.select? payload text = some part := found
    unfold Pointer.select? at chosen
    show text.toList.head?.all (· == '/') = true
    split at chosen
    · rename_i empty
      rw [empty]
      rfl
    · rename_i rest starts
      rw [starts]
      rfl
    · cases chosen

theorem exists_select {pointer : Option String} (sound : isPointer pointer = true) (part : Json) :
    ∃ payload, select payload pointer = some part := by
  cases pointer with
  | none => exact ⟨part, rfl⟩
  | some text =>
    cases chars : text.toList with
    | nil => exact ⟨part, by simp [select, Pointer.select?, chars]⟩
    | cons c rest =>
      have slash : c = '/' := by simpa [isPointer, chars] using sound
      subst slash
      refine ⟨nest ((rest.splitOn '/').map Pointer.decode) part, ?_⟩
      simp only [select, Pointer.select?, chars]
      exact follow_nest _ part

end PriceDesk.Payload
