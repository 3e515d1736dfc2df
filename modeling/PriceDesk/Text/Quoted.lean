import PriceDesk.Text.Blank

namespace PriceDesk.Text

/-- Whether a character shows by itself: not a control or format character, not a blank other than
the space, not for private use and not a mark that joins the character before it. -/
def shows (c : Char) : Bool :=
  let n := c.toNat
  let within (low high : Nat) := low ≤ n && n ≤ high
  !(n < 0x20 || within 0x7f 0xa0 || n == 0xad || within 0x300 0x36f || n == 0x1680 ||
    within 0x2000 0x200f || within 0x2028 0x202f || within 0x205f 0x206f || n == 0x3000 ||
    within 0xe000 0xf8ff || within 0xfe00 0xfe0f || n == 0xfeff)

def quoteChar (c : Char) : List Char :=
  if c == '"' then ['\\', '"']
  else if c == '\\' then ['\\', '\\']
  else if c == '\n' then ['\\', 'n']
  else if c == '\r' then ['\\', 'r']
  else if c == '\t' then ['\\', 't']
  else if c.toNat == 0 then ['\\', '0']
  else if shows c then [c]
  else ['\\', 'u', '\x7b'] ++ Nat.toDigits 16 c.toNat ++ ['\x7d']

def quoted (s : String) : String :=
  String.ofList ('"' :: s.toList.flatMap quoteChar ++ ['"'])

end PriceDesk.Text
