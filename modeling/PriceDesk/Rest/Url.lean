import PriceDesk.Text.Percent
import PriceDesk.Text.Template

namespace PriceDesk

structure Url where
  scheme : String
  authority : String
  target : String
deriving DecidableEq, Repr

namespace Url

def render (u : Url) : String := u.scheme ++ "://" ++ u.authority ++ u.target

def isSlash (c : Char) : Bool := c == '/' || c == '\\'

def endsAuthority (c : Char) : Bool := isSlash c || c == '?' || c == '#'

def forbiddenInHost (c : Char) : Bool :=
  c.toNat ≤ 0x20 || c.toNat == 0x7f || "#/:<>?@[\\]^|%".toList.contains c

/-- The number behind the colon of an authority, with its colon; the usual number of the scheme is
left out. -/
def numberPart? (scheme : String) (digits : List Char) : Option String :=
  if !digits.all Char.isDigit then none
  else if digits.isEmpty then some ""
  else
    let n := Nat.ofDigitChars 10 digits 0
    if 65535 < n then none
    else if (scheme == "http" && n == 80) || (scheme == "https" && n == 443) then some ""
    else some s!":{n}"

def authority? (scheme : String) (cs : List Char) : Option String := do
  let host := cs.takeWhile (· != ':')
  if host.isEmpty || host.any forbiddenInHost then none
  else
    let number ← numberPart? scheme ((cs.dropWhile (· != ':')).drop 1)
    return String.ofList (host.map Char.toLower) ++ number

/-- A character as it is sent; those for which `escape` holds are percent-encoded, and so is
everything beyond ASCII. -/
def sendChar (escape : Char → Bool) (c : Char) : List Char :=
  if c.toNat ≤ 0x20 || 0x7f ≤ c.toNat || escape c then
    c.toString.toUTF8.toList.flatMap fun b =>
      ['%', Text.hexDigit (b.toNat / 16), Text.hexDigit (b.toNat % 16)]
  else [c]

def escapedInPath (c : Char) : Bool := "\"#<>?`\x7b\x7d^".toList.contains c

def escapedInQuery (c : Char) : Bool := "\"#<>'".toList.contains c

def plainDots (segment : List Char) : List Char :=
  Text.fillChars "%2E".toList ['.'] (Text.fillChars "%2e".toList ['.'] segment)

/-- Resolves the segments that mean this or the outer level; `seen` holds the segments so far, the
last first. -/
def resolve (seen : List (List Char)) : List (List Char) → List (List Char)
  | [] => seen.reverse
  | s :: rest =>
    let isLast := rest.isEmpty
    if plainDots s == ['.', '.'] then
      let outer := seen.drop 1
      resolve (if isLast then [] :: outer else outer) rest
    else if plainDots s == ['.'] then resolve (if isLast then [] :: seen else seen) rest
    else resolve (s :: seen) rest

def sentPath (cs : List Char) : List Char :=
  let inner := match cs with
    | c :: rest => if isSlash c then rest else cs
    | [] => []
  (resolve [] (inner.splitOnP isSlash)).flatMap fun s => '/' :: s.flatMap (sendChar escapedInPath)

def sentTarget (cs : List Char) : List Char :=
  let sent := cs.takeWhile (· != '#')
  let query := sent.dropWhile (· != '?')
  sentPath (sent.takeWhile (· != '?')) ++ query.flatMap (sendChar escapedInQuery)

def ofString? (s : String) : Option Url := do
  let cs := ((s.toList.dropWhile (·.toNat ≤ 0x20)).reverse.dropWhile (·.toNat ≤ 0x20)).reverse
  let cs := cs.filter fun c => c != '\t' && c != '\n' && c != '\r'
  let scheme := String.ofList ((cs.takeWhile (· != ':')).map Char.toLower)
  if scheme != "http" && scheme != "https" then none
  else
    let rest := ((cs.dropWhile (· != ':')).drop 1).dropWhile isSlash
    let authority ← authority? scheme (rest.takeWhile (!endsAuthority ·))
    return { scheme, authority,
             target := String.ofList (sentTarget (rest.dropWhile (!endsAuthority ·))) }

end Url

end PriceDesk
