namespace PriceDesk.Text

/-- The text with `value` in place of every occurrence of `hole`, found from left to right. -/
def fillChars (hole value : List Char) (cs : List Char) : List Char :=
  go 0 cs
where
  /-- The rest of the text after the first `skip` characters, which belong to a hole that was
  filled. -/
  go : Nat → List Char → List Char
    | _, [] => []
    | skip + 1, _ :: cs => go skip cs
    | 0, c :: cs =>
      if !hole.isEmpty && hole.isPrefixOf (c :: cs) then value ++ go (hole.length - 1) cs
      else c :: go 0 cs

def fill (template hole value : String) : String :=
  String.ofList (fillChars hole.toList value.toList template.toList)

def occurs (hole : List Char) : List Char → Bool
  | [] => hole.isEmpty
  | c :: cs => hole.isPrefixOf (c :: cs) || occurs hole cs

def hasHole (template hole : String) : Bool := occurs hole.toList template.toList

end PriceDesk.Text
