import PriceDesk.Text.CaseTable

namespace PriceDesk.Text

def asciiLower (s : String) : String :=
  String.ofList (s.toList.map Char.toLower)

def mapCase (shifts : List ShiftRange) (expansions : List (Nat × List Nat)) (c : Char) :
    List Char :=
  match expansions.find? (·.1 == c.toNat) with
  | some (_, ns) => ns.map Char.ofNat
  | none =>
    match shifts.find? (·.covers c.toNat) with
    | some r => [Char.ofNat (c.toNat + r.shift).toNat]
    | none => [c]

def upperChar (c : Char) : List Char :=
  if c.toNat < 0x80 then [c.toUpper] else mapCase upperShifts upperExpansions c

def lowerChar (c : Char) : List Char :=
  if c.toNat < 0x80 then [c.toLower] else mapCase lowerShifts lowerExpansions c

def meetsCased (cs : List Char) : Bool :=
  match cs.dropWhile fun c => inRanges caseIgnorableRanges c.toNat with
  | [] => false
  | c :: _ => inRanges casedRanges c.toNat

def upper (s : String) : String :=
  String.ofList (s.toList.flatMap upperChar)

/-- Lower case by the full mapping. A capital sigma that ends a word becomes the final form. -/
def lower (s : String) : String :=
  String.ofList (go [] s.toList)
where
  go (before : List Char) : List Char → List Char
    | [] => []
    | c :: rest =>
      let mapped :=
        if c.toNat == 0x3a3 then
          if meetsCased before && !meetsCased rest then [Char.ofNat 0x3c2] else [Char.ofNat 0x3c3]
        else lowerChar c
      mapped ++ go (c :: before) rest

end PriceDesk.Text
