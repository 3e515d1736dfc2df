import PriceDesk.Text.Natural

namespace PriceDesk

inductive CommandName where
  | discover
  | price
  | quotes
  | volumes
  | orderBook
  | pairs
deriving DecidableEq, Repr

inductive OptionName where
  | config
  | network
  | depth
  | withPrices
deriving DecidableEq, Repr

inductive UsageError where
  | help
  | version
  | nothing
  | noCommand
  | unknownCommand
  | unknownArgument
  | missingArgument
  | missingValue
  | unneededValue
  | repeated
  | badNumber
deriving DecidableEq, Repr

namespace CommandName

def names : List (String × CommandName) :=
  [("discover", discover), ("price", price), ("quotes", quotes), ("volumes", volumes),
   ("order-book", orderBook), ("pairs", pairs)]

def ofName? (s : String) : Option CommandName := names.lookup s

def options : CommandName → List (String × OptionName)
  | discover | price | quotes | volumes => [("config", .config), ("network", .network)]
  | orderBook => [("config", .config), ("network", .network), ("depth", .depth)]
  | pairs => [("config", .config), ("network", .network), ("with-prices", .withPrices)]

def takesWord : CommandName → Nat → Bool
  | price, _ => true
  | pairs, _ => false
  | discover, n | quotes, n | volumes, n | orderBook, n => n == 0

end CommandName

structure Given where
  values : List (OptionName × String) := []
  words : List String := []
  pending : Option (OptionName × Option String) := none

namespace Given

def value? (g : Given) (o : OptionName) : Option String := g.values.lookup o

def number? (s : String) : Option Nat := Text.natural? 64 s.toList

def checkValue (o : OptionName) (value : String) : Except UsageError Unit :=
  match o with
  | .config => if value.isEmpty then .error .missingValue else .ok ()
  | .depth => if (number? value).isNone then .error .badNumber else .ok ()
  | .network | .withPrices => .ok ()

def settle (g : Given) : Except UsageError Given :=
  match g.pending with
  | none => .ok g
  | some (_, none) => .error .missingValue
  | some (o, some value) =>
    if (g.value? o).isSome then .error .repeated
    else do
      checkValue o value
      return { g with values := (o, value) :: g.values, pending := none }

def wantsValue (g : Given) : Bool := g.pending.any (·.2.isNone)

def giveValue (g : Given) (value : String) : Given :=
  { g with pending := g.pending.map fun (o, _) => (o, some value) }

def giveOption (g : Given) (o : OptionName) (value : Option String) : Except UsageError Given := do
  return { ← g.settle with pending := some (o, value) }

def giveWord (g : Given) (word : String) : Except UsageError Given := do
  let g ← g.settle
  return { g with words := g.words ++ [word] }

def endWith (g : Given) (e : UsageError) : Except UsageError Given := do
  let _ ← g.settle
  .error e

end Given

inductive Argument where
  | separator
  | long (name : String) (value : Option String)
  | short (letter : Char)
  | word (text : String)
deriving DecidableEq, Repr

namespace Argument

def of (s : String) : Argument :=
  match s.toList with
  | ['-', '-'] => .separator
  | '-' :: '-' :: cs =>
    let name := String.ofList (cs.takeWhile (· != '='))
    match cs.dropWhile (· != '=') with
    | [] => .long name none
    | _ :: value => .long name (some (String.ofList value))
  | '-' :: letter :: _ => .short letter
  | _ => .word s

end Argument

namespace Given

def read (g : Given) (options : List (String × OptionName)) (hasVersion : Bool) :
    Argument → Except UsageError Given
  | .long name value =>
    if name == "help" || (hasVersion && name == "version") then
      if value.isSome then .error .unneededValue
      else g.endWith (if name == "help" then .help else .version)
    else
      match options.lookup name with
      | none => .error .unknownArgument
      | some .withPrices =>
        if value.isSome then .error .unneededValue
        else do (← g.giveOption .withPrices (some "")).settle
      | some o => do
        let g ← g.giveOption o value
        if value.isSome then g.settle else .ok g
  | .short 'h' => g.endWith .help
  | .short 'V' => if hasVersion then g.endWith .version else .error .unknownArgument
  | .short _ => .error .unknownArgument
  | .separator | .word _ => .ok g

def readWords (g : Given) (c : CommandName) : List String → Except UsageError Given
  | [] => .ok g
  | word :: rest =>
    if c.takesWord g.words.length then do (← g.giveWord word).readWords c rest
    else .error .unknownArgument

def readCommand (g : Given) (c : CommandName) : List String → Except UsageError Given
  | [] => .ok g
  | s :: rest =>
    match Argument.of s with
    | .separator => g.readWords c rest
    | .word text =>
      if g.wantsValue then (g.giveValue text).readCommand c rest
      else if c.takesWord g.words.length then do (← g.giveWord text).readCommand c rest
      else .error .unknownArgument
    | option => do (← g.read c.options false option).readCommand c rest

end Given

inductive Command where
  | discover (pair : String) (network : Option String)
  | price (pairs : List String) (network : Option String)
  | quotes (pair : String) (network : Option String)
  | volumes (pair : String)
  | orderBook (pair network : String) (depth : Nat)
  | pairs (network : String) (withPrices : Bool)
deriving DecidableEq, Repr

namespace Command

def defaultDepth : Nat := 20

def of (c : CommandName) (g : Given) : Option Command :=
  match c with
  | .discover => do return .discover (← g.words.head?) (g.value? .network)
  | .price => if g.words.isEmpty then none else some (.price g.words (g.value? .network))
  | .quotes => do return .quotes (← g.words.head?) (g.value? .network)
  | .volumes => do return .volumes (← g.words.head?)
  | .orderBook => do
    return .orderBook (← g.words.head?) (← g.value? .network)
      (((g.value? .depth).bind Given.number?).getD defaultDepth)
  | .pairs => do return .pairs (← g.value? .network) (g.value? .withPrices).isSome

end Command

/-- A command, and the path of the configuration if one is given. -/
structure Invocation where
  config : Option String
  command : Command
deriving DecidableEq, Repr

namespace Invocation

def helpName : String := "help"

def isName (s : String) : Bool := s == helpName || (CommandName.ofName? s).isSome

def helpOn : List String → UsageError
  | [] => .help
  | [topic] => if isName topic then .help else .unknownCommand
  | _ => .unknownCommand

def strayWord (s : String) : UsageError :=
  if isName s then .unknownArgument else .unknownCommand

/-- The invocation of a command with its arguments; `g` is what was given before its name. -/
def ofCommand? (g : Given) (c : CommandName) (arguments : List String) :
    Except UsageError Invocation := do
  let own ← (← Given.readCommand {} c arguments).settle
  match Command.of c own with
  | none => .error .missingArgument
  | some command =>
    let g ← g.settle
    return { config := (own.value? .config).or (g.value? .config), command }

def unfinished (g : Given) : UsageError :=
  match g.settle with
  | .error e => e
  | .ok g => if g.values.isEmpty then .nothing else .noCommand

def read (g : Given) : List String → Except UsageError Invocation
  | [] => .error (unfinished g)
  | s :: rest =>
    if !g.wantsValue && s == helpName then .error (helpOn rest)
    else
      match if g.wantsValue then none else CommandName.ofName? s with
      | some c => ofCommand? g c rest
      | none =>
        match Argument.of s with
        | .separator => .error ((rest.head?.map strayWord).getD (unfinished g))
        | .word text =>
          if g.wantsValue then read (g.giveValue text) rest else .error .unknownCommand
        | option => do read (← g.read [("config", .config)] true option) rest

def ofArguments? (arguments : List String) : Except UsageError Invocation := read {} arguments

end Invocation

end PriceDesk
