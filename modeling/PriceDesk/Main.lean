import PriceDesk.CommandLine.Answer
import PriceDesk.CommandLine.Usage
import PriceDesk.Config.Routes
import PriceDesk.Json.Layout

namespace PriceDesk

def contentsOf (path : String) : IO (Except String String) := do
  try
    return .ok (← IO.FS.readFile path)
  catch e =>
    match e with
    | .noFileOrDirectory .. => return .error Configuration.noSuchFile
    | _ => return .error (toString e)

def serverOf (path : Option String) : IO (Except String Server) := do
  match path with
  | none => return .ok []
  | some path =>
    match ← contentsOf path with
    | .error reason => return .error s!"cannot read {path}: {reason}"
    | .ok contents =>
      match Server.ofText? contents with
      | none => return .error s!"invalid routes in {path}"
      | some server => return .ok server

def serviceOf (c : Configuration) (server : Server) : Except String Service :=
  match Service.ofConfiguration c server none with
  | .ok service => .ok service
  | .error (.invalid e) => .error e.message
  | .error .noLimiter => .error "a rate limit allows too many requests"

def answerTo (invocation : Invocation) : IO (Except String Json) := do
  let path := invocation.config.getD ((← IO.getEnv "PRICE_DESK_CONFIG").getD "price-desk.json")
  let server ← serverOf (← IO.getEnv "PRICE_DESK_ROUTES")
  match Configuration.ofFile? path (← contentsOf path), server with
  | .error e, _ => return .error e.message
  | _, .error text => return .error text
  | .ok c, .ok server => return (serviceOf c server).bind fun s => (invocation.command.run s).1

def runProgram (arguments : List String) : IO UInt32 := do
  match Invocation.ofArguments? arguments with
  | .error e =>
    if e.isAnswer then
      IO.println e.message
      return 0
    else
      IO.eprintln e.message
      return 2
  | .ok invocation =>
    match ← answerTo invocation with
    | .ok answer =>
      IO.println answer.layOut
      return 0
    | .error text =>
      IO.eprintln s!"Error: {text}"
      return 1

end PriceDesk

def main (arguments : List String) : IO UInt32 := PriceDesk.runProgram arguments
