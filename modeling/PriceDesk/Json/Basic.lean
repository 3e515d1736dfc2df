import PriceDesk.Binary64.Shortest

namespace PriceDesk

inductive Json.Number where
  | int (n : Int)
  | float (negative : Bool) (magnitude : Binary64)
deriving DecidableEq, Repr

inductive Json where
  | null
  | bool (b : Bool)
  | num (n : Json.Number)
  | str (s : String)
  | arr (items : List Json)
  | obj (members : List (String × Json))
deriving Repr, BEq

namespace Json

instance : Inhabited Json := ⟨.null⟩

def Number.render : Number → String
  | .int n => toString n
  | .float negative x => (if negative then "-" else "") ++ x.render

def insertMember (key : String) (value : Json) : List (String × Json) → List (String × Json)
  | [] => [(key, value)]
  | (k, v) :: rest =>
    if key < k then (key, value) :: (k, v) :: rest
    else if key == k then (key, value) :: rest
    else (k, v) :: insertMember key value rest

def ofMembers (members : List (String × Json)) : Json :=
  .obj (members.foldl (fun ms (k, v) => insertMember k v ms) [])

def ofPresent (members : List (String × Option Json)) : Json :=
  ofMembers (members.filterMap fun (k, v) => v.map (k, ·))

def get? : Json → String → Option Json
  | .obj members, key => members.lookup key
  | _, _ => none

def str? : Json → Option String
  | .str s => some s
  | _ => none

def nat? : Json → Option Nat
  | .num (.int (.ofNat n)) => some n
  | _ => none

def items? : Json → Option (List Json)
  | .arr items => some items
  | _ => none

def ofNat (n : Nat) : Json := .num (.int n)

def orNull (value : Option Json) : Json := value.getD .null

def hexDigit (n : Nat) : Char :=
  if n < 10 then Char.ofNat (0x30 + n) else Char.ofNat (0x57 + n)

def escapeChar (c : Char) : List Char :=
  if c == '"' then ['\\', '"']
  else if c == '\\' then ['\\', '\\']
  else if c == '\n' then ['\\', 'n']
  else if c == '\r' then ['\\', 'r']
  else if c == '\t' then ['\\', 't']
  else if c.toNat == 8 then ['\\', 'b']
  else if c.toNat == 12 then ['\\', 'f']
  else if c.toNat < 0x20 then
    ['\\', 'u', '0', '0', hexDigit (c.toNat / 16), hexDigit (c.toNat % 16)]
  else [c]

def quote (s : String) : String :=
  String.ofList ('"' :: s.toList.flatMap escapeChar ++ ['"'])

mutual

def render : Json → String
  | .null => "null"
  | .bool true => "true"
  | .bool false => "false"
  | .num n => n.render
  | .str s => quote s
  | .arr items => "[" ++ ",".intercalate (renderItems items) ++ "]"
  | .obj members => "\x7b" ++ ",".intercalate (renderMembers members) ++ "\x7d"

def renderItems : List Json → List String
  | [] => []
  | v :: rest => v.render :: renderItems rest

def renderMembers : List (String × Json) → List String
  | [] => []
  | (k, v) :: rest => (quote k ++ ":" ++ v.render) :: renderMembers rest

end

end Json

end PriceDesk
