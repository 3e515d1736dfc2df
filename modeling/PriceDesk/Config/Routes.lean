import PriceDesk.Config.Reader
import PriceDesk.Rest.Server

namespace PriceDesk

namespace Config

def route : Reader Route := fun d => do
  match ← fields ["path", "status", "body", "drop", "hang"] d with
  | [path, status, body, drops, hangs] =>
    return {
      path := ← required text path
      status := ← withDefault 200 nat status
      body := ← withDefault "" text body
      drops := ← withDefault false flag drops
      hangs := ← withDefault false flag hangs }
  | _ => none

end Config

def Server.ofText? (s : String) : Option Server :=
  (Json.Document.ofText? s).bind (Config.list Config.route)

end PriceDesk
