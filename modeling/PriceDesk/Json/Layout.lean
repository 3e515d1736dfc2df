import PriceDesk.Json.Basic

namespace PriceDesk.Json

def newLine (level : Nat) : String := "\n" ++ String.ofList (List.replicate (2 * level) ' ')

def bracketed (left right : String) (level : Nat) : List String → String
  | [] => left ++ right
  | parts =>
    left ++ newLine (level + 1) ++ ("," ++ newLine (level + 1)).intercalate parts ++
      newLine level ++ right

mutual

def layOutAt (level : Nat) : Json → String
  | .arr items => bracketed "[" "]" level (layOutItems (level + 1) items)
  | .obj members => bracketed "\x7b" "\x7d" level (layOutMembers (level + 1) members)
  | v => v.render

def layOutItems (level : Nat) : List Json → List String
  | [] => []
  | v :: rest => v.layOutAt level :: layOutItems level rest

def layOutMembers (level : Nat) : List (String × Json) → List String
  | [] => []
  | (k, v) :: rest => (quote k ++ ": " ++ v.layOutAt level) :: layOutMembers level rest

end

def layOut (v : Json) : String := v.layOutAt 0

end PriceDesk.Json
