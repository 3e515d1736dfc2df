import PriceDesk.Json.Document

namespace PriceDesk.Config

open Json (Document)

abbrev Reader (α : Type) := Document → Option α

def text : Reader String
  | .text s => s
  | _ => none

def flag : Reader Bool
  | .bool b => some b
  | _ => none

def nat : Reader Nat
  | .numeral n =>
    match n.number? with
    | some (.int (.ofNat k)) => some k
    | _ => none
  | _ => none

def int32 : Reader Int
  | .numeral n =>
    match n.number? with
    | some (.int k) => if -Int.ofNat (twoTo 31) ≤ k ∧ k < Int.ofNat (twoTo 31) then some k else none
    | _ => none
  | _ => none

def char : Reader Char
  | .text (some s) =>
    match s.toList with
    | [c] => some c
    | _ => none
  | _ => none

def list {α : Type} (read : Reader α) : Reader (List α)
  | .array items => items.mapM read
  | _ => none

def nullable {α : Type} (read : Reader α) : Reader (Option α)
  | .null => some none
  | d => (read d).map some

def dictionary : Reader (List (String × String))
  | .object members => do
    let entries ← members.mapM fun (key, value) => do return (← key, ← text value)
    return entries.foldl (fun ms (k, v) => ms.filter (·.1 != k) ++ [(k, v)]) []
  | _ => none

def fields (names : List String) : Reader (List (Option Document))
  | .object members => do
    let members ← members.mapM fun (key, value) => do return (← key, value)
    names.mapM fun name =>
      match members.filter (·.1 == name) with
      | [] => some none
      | [(_, value)] => some (some value)
      | _ => none
  | .array items =>
    if items.length ≤ names.length then
      some (items.map some ++ List.replicate (names.length - items.length) none)
    else none
  | _ => none

def required {α : Type} (read : Reader α) (field : Option Document) : Option α :=
  field.bind read

def withDefault {α : Type} (default : α) (read : Reader α) : Option Document → Option α
  | none => some default
  | some d => read d

def optional {α : Type} (read : Reader α) : Option Document → Option (Option α) :=
  withDefault none (nullable read)

end PriceDesk.Config
