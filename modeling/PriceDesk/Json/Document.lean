import PriceDesk.Json.Basic

namespace PriceDesk

/-- A number as written. `fraction` holds the digits after the point; `exponent` says whether it is
negative and what its digits are. -/
structure Json.Numeral where
  negative : Bool
  whole : List Char
  fraction : List Char
  exponent : Option (Bool × List Char)
deriving DecidableEq, Repr

inductive Json.Document where
  | null
  | bool (b : Bool)
  | numeral (n : Json.Numeral)
  | text (s : Option String)
  | array (items : List Json.Document)
  | object (members : List (Option String × Json.Document))
deriving Repr

namespace Json

def digitValue (c : Char) : Nat := c.toNat - '0'.toNat

namespace Numeral

def isInteger (n : Numeral) : Bool := n.fraction.isEmpty && n.exponent.isNone

/-- Appends digits to a significand while it stays below 2^64; says how many found room and how
many were left over. -/
def accumulate (significand : Nat) : List Char → Nat × Nat × Nat
  | [] => (significand, 0, 0)
  | c :: rest =>
    let next := 10 * significand + digitValue c
    if next < twoTo 64 then
      let (m, used, left) := accumulate next rest
      (m, used + 1, left)
    else (significand, 0, rest.length + 1)

/-- The floating point number that the digits give: a significand of 64 bits, scaled by a power of
ten. Digits of the whole part that the significand has no room for count as zeros, those of the
fraction are dropped. -/
def float? (n : Numeral) : Option Binary64 :=
  let (m, _, excess) := accumulate 0 n.whole
  let (m, places, _) := accumulate m n.fraction
  let scale : Int := Int.ofNat excess - Int.ofNat places
  match n.exponent with
  | none => Binary64.ofScientific? m scale
  | some (negative, digits) =>
    let e := Nat.ofDigitChars 10 digits 0
    if e < twoTo 31 then
      Binary64.ofScientific? m (if negative then scale - Int.ofNat e else scale + Int.ofNat e)
    else if m != 0 && !negative then none
    else some Binary64.zero

/-- The number a numeral stands for. Whole numbers of 64 bits are exact, all others floating point;
a negative zero is floating point too. -/
def number? (n : Numeral) : Option Number :=
  let whole := Nat.ofDigitChars 10 n.whole 0
  if n.isInteger && !n.negative && whole < twoTo 64 then some (.int whole)
  else if n.isInteger && n.negative && 0 < whole && whole ≤ twoTo 63 then some (.int (-whole))
  else n.float?.map (.float n.negative)

end Numeral

namespace Document

def isSpace (c : Char) : Bool := c == ' ' || c == '\t' || c == '\n' || c == '\r'

def skipSpace (cs : List Char) : List Char := cs.dropWhile isSpace

def hexValue? (c : Char) : Option Nat :=
  if '0' ≤ c && c ≤ '9' then some (c.toNat - 0x30)
  else if 'a' ≤ c && c ≤ 'f' then some (c.toNat - 0x57)
  else if 'A' ≤ c && c ≤ 'F' then some (c.toNat - 0x37)
  else none

def hexQuad? (a b c d : Char) : Option Nat := do
  return 4096 * (← hexValue? a) + 256 * (← hexValue? b) + 16 * (← hexValue? c) + (← hexValue? d)

def surrogatePair? (high low : Nat) : Option Char :=
  if 0xd800 ≤ high && high < 0xdc00 && 0xdc00 ≤ low && low < 0xe000 then
    some (Char.ofNat (0x10000 + 1024 * (high - 0xd800) + (low - 0xdc00)))
  else none

def escaped? (c : Char) : Option Char :=
  match c with
  | '"' => some '"'
  | '\\' => some '\\'
  | '/' => some '/'
  | 'b' => some (Char.ofNat 8)
  | 'f' => some (Char.ofNat 12)
  | 'n' => some '\n'
  | 'r' => some '\r'
  | 't' => some '\t'
  | _ => none

/-- Reads a string behind its opening quote. `seen` holds its characters so far, the last first, or
nothing once an unpaired surrogate was met. -/
def readText (seen : Option (List Char)) : List Char → Option (Option String × List Char)
  | [] => none
  | '"' :: rest => some (seen.map (String.ofList ·.reverse), rest)
  | '\\' :: 'u' :: a :: b :: c :: d :: '\\' :: 'u' :: e :: f :: g :: h :: rest => do
    let high ← hexQuad? a b c d
    match (hexQuad? e f g h).bind (surrogatePair? high) with
    | some ch => readText (seen.map (ch :: ·)) rest
    | none =>
      readText (push seen high) ('\\' :: 'u' :: e :: f :: g :: h :: rest)
  | '\\' :: 'u' :: a :: b :: c :: d :: rest => do
    readText (push seen (← hexQuad? a b c d)) rest
  | '\\' :: c :: rest => do
    let ch ← escaped? c
    readText (seen.map (ch :: ·)) rest
  | c :: rest => if c.toNat < 0x20 then none else readText (seen.map (c :: ·)) rest
where
  push (seen : Option (List Char)) (n : Nat) : Option (List Char) :=
    if 0xd800 ≤ n && n < 0xe000 then none else seen.map (Char.ofNat n :: ·)

def readDigits (cs : List Char) : Option (List Char × List Char) :=
  let digits := cs.takeWhile Char.isDigit
  if digits.isEmpty then none else some (digits, cs.dropWhile Char.isDigit)

def readNumeral (cs : List Char) : Option (Numeral × List Char) := do
  let (negative, cs) := match cs with
    | '-' :: rest => (true, rest)
    | _ => (false, cs)
  let (whole, cs) ← readDigits cs
  if whole.head? == some '0' && 1 < whole.length then none
  let (fraction, cs) ← match cs with
    | '.' :: rest => readDigits rest
    | _ => some ([], cs)
  let (exponent, cs) ← match cs with
    | c :: rest =>
      if c == 'e' || c == 'E' then do
        let (sign, rest) := match rest with
          | '-' :: rest => (true, rest)
          | '+' :: rest => (false, rest)
          | _ => (false, rest)
        let (digits, rest) ← readDigits rest
        some (some (sign, digits), rest)
      else some (none, cs)
    | [] => some (none, cs)
  return (⟨negative, whole, fraction, exponent⟩, cs)

mutual

/-- Reads one value. The fuel bounds the depth and the number of elements still to be read. -/
def readValue : Nat → List Char → Option (Document × List Char)
  | 0, _ => none
  | fuel + 1, cs =>
    match skipSpace cs with
    | 'n' :: 'u' :: 'l' :: 'l' :: rest => some (.null, rest)
    | 't' :: 'r' :: 'u' :: 'e' :: rest => some (.bool true, rest)
    | 'f' :: 'a' :: 'l' :: 's' :: 'e' :: rest => some (.bool false, rest)
    | '"' :: rest => (readText (some []) rest).map fun (s, rest) => (.text s, rest)
    | '[' :: rest =>
      match skipSpace rest with
      | ']' :: rest => some (.array [], rest)
      | rest => (readItems fuel rest).map fun (items, rest) => (.array items, rest)
    | '\x7b' :: rest =>
      match skipSpace rest with
      | '\x7d' :: rest => some (.object [], rest)
      | rest => (readMembers fuel rest).map fun (members, rest) => (.object members, rest)
    | rest => (readNumeral rest).map fun (n, rest) => (.numeral n, rest)

def readItems : Nat → List Char → Option (List Document × List Char)
  | 0, _ => none
  | fuel + 1, cs => do
    let (item, rest) ← readValue fuel cs
    match skipSpace rest with
    | ']' :: rest => some ([item], rest)
    | ',' :: rest =>
      let (items, rest) ← readItems fuel rest
      some (item :: items, rest)
    | _ => none

def readMembers : Nat → List Char → Option (List (Option String × Document) × List Char)
  | 0, _ => none
  | fuel + 1, cs => do
    let '"' :: rest := skipSpace cs | none
    let (key, rest) ← readText (some []) rest
    let ':' :: rest := skipSpace rest | none
    let (value, rest) ← readValue fuel rest
    match skipSpace rest with
    | '\x7d' :: rest => some ([(key, value)], rest)
    | ',' :: rest =>
      let (members, rest) ← readMembers fuel rest
      some ((key, value) :: members, rest)
    | _ => none

end

def ofText? (s : String) : Option Document := do
  let cs := s.toList
  let (document, rest) ← readValue (cs.length + 1) cs
  if (skipSpace rest).isEmpty then some document else none

mutual

def value? (depth : Nat) : Document → Option Json
  | .null => some .null
  | .bool b => some (.bool b)
  | .numeral n => n.number?.map .num
  | .text s => s.map .str
  | .array items =>
    if depth == 0 then none else (itemValues? (depth - 1) items).map .arr
  | .object members =>
    if depth == 0 then none else (memberValues? (depth - 1) members).map ofMembers

def itemValues? (depth : Nat) : List Document → Option (List Json)
  | [] => some []
  | item :: rest => do
    return (← value? depth item) :: (← itemValues? depth rest)

def memberValues? (depth : Nat) : List (Option String × Document) → Option (List (String × Json))
  | [] => some []
  | (key, value) :: rest => do
    return (← key, ← value? depth value) :: (← memberValues? depth rest)

end

end Document

def maxDepth : Nat := 127

def ofText? (s : String) : Option Json := do
  (← Document.ofText? s).value? maxDepth

end Json

end PriceDesk
