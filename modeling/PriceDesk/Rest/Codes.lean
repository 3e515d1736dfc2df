import PriceDesk.Market.Asset
import PriceDesk.Rest.Description
import PriceDesk.Text.Case

namespace PriceDesk

structure Codes where
  /-- The exchange's own codes, in upper case, and the assets that they mean. -/
  aliases : List (String × Asset) := []
  separator : Option Char := none
  quoteCodes : List String := []
  lowercase : Bool := false

namespace Codes

def canonical (code : String) : String := Text.upper (Text.trim code)

def of (e : ExchangeDescription) : Codes where
  aliases := e.assetAliases.map fun (remote, asset) => (canonical remote, .of asset)
  separator := e.pairSeparator
  quoteCodes :=
    (e.quoteAssets.map canonical).mergeSort fun a b => b.utf8ByteSize ≤ a.utf8ByteSize
  lowercase := e.lowercaseTickers

def asset (c : Codes) (code : String) : Asset :=
  (c.aliases.lookup (canonical code)).getD (.of (canonical code))

def code (c : Codes) (a : Asset) : String :=
  ((c.aliases.find? (·.2 == a)).map (·.1)).getD a.code

def pair? (c : Codes) (base quote : String) : Option AssetPair :=
  let pair : AssetPair := ⟨c.asset base, c.asset quote⟩
  if pair.asset1.isEmpty || pair.asset2.isEmpty then none else some pair

def ticker (c : Codes) (p : AssetPair) : String :=
  let separator := (c.separator.map Char.toString).getD ""
  let text := c.code p.asset1 ++ separator ++ c.code p.asset2
  if c.lowercase then Text.lower text else text

def splitAt? (separator : Char) (text : String) : Option (String × String) :=
  let cs := text.toList
  match cs.dropWhile (· != separator) with
  | [] => none
  | _ :: quote => some (String.ofList (cs.takeWhile (· != separator)), String.ofList quote)

def baseBefore? (text quote : String) : Option String :=
  let cs := text.toList
  let qs := quote.toList
  if qs.isSuffixOf cs && qs.length < cs.length then
    some (String.ofList (cs.take (cs.length - qs.length)))
  else none

def parseTicker (c : Codes) (ticker : String) : Option AssetPair :=
  let text := canonical ticker
  match c.separator with
  | some separator => do
    let (base, quote) ← splitAt? separator text
    c.pair? base quote
  | none => do
    let (base, quote) ←
      c.quoteCodes.findSome? fun quote => (baseBefore? text quote).map (·, quote)
    c.pair? base quote

end Codes

end PriceDesk
