import PriceDesk.Json.Basic
import PriceDesk.Market.Error
import PriceDesk.Text.Blank

namespace PriceDesk

/-- The form in which asset codes are kept: trimmed, with the Latin letters in upper case. -/
def Asset.normalize (cs : List Char) : List Char :=
  (Text.trimChars cs).map Char.toUpper

theorem Asset.normalize_normalize (cs : List Char) :
    normalize (normalize cs) = normalize cs := by
  simp only [normalize, Text.trimChars_map Text.isBlank_toUpper, Text.trimChars_trimChars,
    List.map_map]
  exact List.map_congr_left fun c _ => Text.toUpper_toUpper c

structure Asset where
  code : String
  normal : Asset.normalize code.toList = code.toList
deriving DecidableEq

namespace Asset

def of (code : String) : Asset where
  code := String.ofList (normalize code.toList)
  normal := by rw [String.toList_ofList, normalize_normalize]

instance : Inhabited Asset := ⟨of ""⟩
instance : ToString Asset := ⟨code⟩

@[ext] theorem ext {a b : Asset} (h : a.code = b.code) : a = b := by
  cases a
  cases b
  cases h
  rfl

theorem of_code (a : Asset) : of a.code = a :=
  Asset.ext ((congrArg String.ofList a.normal).trans String.ofList_toList)

def isEmpty (a : Asset) : Bool := a.code.isEmpty

def toJson (a : Asset) : Json := .str a.code

def ofJson? : Json → Option Asset
  | .str code => some (of code)
  | _ => none

end Asset

/-- A base asset and the quote asset in which it is priced. -/
structure AssetPair where
  asset1 : Asset
  asset2 : Asset
deriving DecidableEq, Inhabited

namespace AssetPair

def of (code1 code2 : String) : AssetPair := ⟨.of code1, .of code2⟩

def reversed (p : AssetPair) : AssetPair := ⟨p.asset2, p.asset1⟩

@[simp] theorem reversed_reversed (p : AssetPair) : p.reversed.reversed = p := rfl

def equalsOrReversed (p q : AssetPair) : Bool := p == q || p == q.reversed

def has (p : AssetPair) (a : Asset) : Bool := p.asset1 == a || p.asset2 == a

def isDegenerate (p : AssetPair) : Bool :=
  p.asset1 == p.asset2 || p.asset1.isEmpty || p.asset2.isEmpty

def compare (p q : AssetPair) : Ordering :=
  (compareOfLessAndEq p.asset1.code q.asset1.code).then
    (compareOfLessAndEq p.asset2.code q.asset2.code)

def toTicker (p : AssetPair) : Option Char → String
  | some separator => p.asset1.code ++ separator.toString ++ p.asset2.code
  | none => p.asset1.code ++ p.asset2.code

def render (p : AssetPair) : String := p.toTicker (some '_')

instance : ToString AssetPair := ⟨render⟩

def ofTicker? (ticker : String) (separator : Char) : Except MarketError AssetPair :=
  match ticker.toList.splitOn separator with
  | [a, b] =>
    if (Text.trimChars a).isEmpty || (Text.trimChars b).isEmpty then .error (.invalidPair ticker)
    else .ok (of (String.ofList a) (String.ofList b))
  | _ => .error (.invalidPair ticker)

def separators : List Char := ['_', '/', '-']

def ofString? (s : String) : Except MarketError AssetPair :=
  match separators.find? (s.toList.contains ·) with
  | some separator => ofTicker? s separator
  | none => .error (.invalidPair s)

def toJson (p : AssetPair) : Json :=
  .ofMembers [("asset1", p.asset1.toJson), ("asset2", p.asset2.toJson)]

def ofJson? (v : Json) : Option AssetPair := do
  return ⟨← Asset.ofJson? (← v.get? "asset1"), ← Asset.ofJson? (← v.get? "asset2")⟩

end AssetPair

end PriceDesk
