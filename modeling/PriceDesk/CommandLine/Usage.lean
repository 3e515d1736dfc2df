import PriceDesk.CommandLine.Arguments

namespace PriceDesk

namespace UsageError

def versionText : String := "price-desk 0.4.0"

def helpText : String :=
  "Usage: price-desk [--config <CONFIG>] <COMMAND>\n\n" ++
  "Commands:\n" ++
  "  discover    Find the exchange that can price a pair\n" ++
  "  price       Latest price of one or more pairs, converting through an intermediary\n" ++
  "  quotes      Quotes for one pair from every exchange listing it\n" ++
  "  volumes     24h traded volume of one pair across exchanges\n" ++
  "  order-book  Order book of a pair on one exchange\n" ++
  "  pairs       Pairs listed by one exchange\n" ++
  "  help        Print this message"

def isAnswer : UsageError → Bool
  | help | version => true
  | _ => false

def message : UsageError → String
  | help | nothing => helpText
  | version => versionText
  | noCommand => "error: a command is required"
  | unknownCommand => "error: unrecognized command"
  | unknownArgument => "error: unexpected argument"
  | missingArgument => "error: a required argument was not provided"
  | missingValue => "error: an option lacks its value"
  | unneededValue => "error: an option has a value that it does not take"
  | repeated => "error: an option cannot be used more than once"
  | badNumber => "error: a value is not a number"

end UsageError

end PriceDesk
