import PriceDesk.Json.Basic
import PriceDesk.Text.Natural

namespace PriceDesk.Json.Pointer

def unescapeSlash : List Char → List Char
  | '~' :: '1' :: rest => '/' :: unescapeSlash rest
  | c :: rest => c :: unescapeSlash rest
  | [] => []

def unescapeTilde : List Char → List Char
  | '~' :: '0' :: rest => '~' :: unescapeTilde rest
  | c :: rest => c :: unescapeTilde rest
  | [] => []

def decode (token : List Char) : String :=
  String.ofList (unescapeTilde (unescapeSlash token))

def index? (token : String) : Option Nat :=
  let cs := token.toList
  if cs.head? == some '+' || (cs.head? == some '0' && 1 < cs.length) then none
  else Text.natural? 64 cs

def step (value : Json) (token : String) : Option Json :=
  match value with
  | .obj members => members.lookup token
  | .arr items => (index? token).bind (items[·]?)
  | _ => none

def select? (value : Json) (pointer : String) : Option Json :=
  match pointer.toList with
  | [] => some value
  | '/' :: rest => ((rest.splitOn '/').map decode).foldlM step value
  | _ => none

end PriceDesk.Json.Pointer
