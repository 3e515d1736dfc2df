import PriceDesk.Json.Basic
import PriceDesk.Text.Blank
import PriceDesk.Text.Case

namespace PriceDesk

structure Network where
  name : String
deriving Repr, Inhabited

namespace Network

def of (text : String) : Network := ⟨Text.trim text⟩

def key (n : Network) : String := Text.asciiLower n.name

instance : BEq Network := ⟨fun a b => a.key == b.key⟩
instance : Hashable Network := ⟨fun a => hash a.key⟩
instance : ToString Network := ⟨name⟩

theorem beq_iff {a b : Network} : (a == b) = true ↔ a.key = b.key :=
  beq_iff_eq (a := a.key)

instance : EquivBEq Network where
  rfl := beq_iff.mpr rfl
  symm same := beq_iff.mpr (beq_iff.mp same).symm
  trans left right := beq_iff.mpr ((beq_iff.mp left).trans (beq_iff.mp right))

def toJson (n : Network) : Json := .str n.name

def ofJson? : Json → Option Network
  | .str name => some (of name)
  | _ => none

end Network

end PriceDesk
