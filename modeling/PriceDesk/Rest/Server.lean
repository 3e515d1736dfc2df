import PriceDesk.Text.Case
import PriceDesk.Text.Template

namespace PriceDesk

structure Route where
  path : String
  status : Nat := 200
  body : String := ""
  drops : Bool := false
  hangs : Bool := false
deriving Repr

inductive Response where
  | answered (status : Nat) (body : String)
  | dropped
  | silent
deriving DecidableEq, Repr

abbrev Server := List Route

namespace Server

def isBodiless (status : Nat) : Bool := status < 200 || status == 204 || status == 304

def respond (s : Server) (target : String) : Response :=
  match s.find? (·.path == target) with
  | none => .answered 404 "\x7b\x7d"
  | some r =>
    if r.drops then .dropped
    else if r.hangs then .silent
    else .answered r.status (if isBodiless r.status then "" else r.body)

end Server

def statusReasons : List (Nat × String) :=
  [(100, "Continue"), (101, "Switching Protocols"), (102, "Processing"), (103, "Early Hints"),
   (200, "OK"), (201, "Created"), (202, "Accepted"), (203, "Non Authoritative Information"),
   (204, "No Content"), (205, "Reset Content"), (206, "Partial Content"), (207, "Multi-Status"),
   (208, "Already Reported"), (226, "IM Used"), (300, "Multiple Choices"),
   (301, "Moved Permanently"), (302, "Found"), (303, "See Other"), (304, "Not Modified"),
   (305, "Use Proxy"), (307, "Temporary Redirect"), (308, "Permanent Redirect"),
   (400, "Bad Request"), (401, "Unauthorized"), (402, "Payment Required"), (403, "Forbidden"),
   (404, "Not Found"), (405, "Method Not Allowed"), (406, "Not Acceptable"),
   (407, "Proxy Authentication Required"), (408, "Request Timeout"), (409, "Conflict"),
   (410, "Gone"), (411, "Length Required"), (412, "Precondition Failed"),
   (413, "Payload Too Large"), (414, "URI Too Long"), (415, "Unsupported Media Type"),
   (416, "Range Not Satisfiable"), (417, "Expectation Failed"), (418, "I'm a teapot"),
   (421, "Misdirected Request"), (422, "Unprocessable Entity"), (423, "Locked"),
   (424, "Failed Dependency"), (425, "Too Early"), (426, "Upgrade Required"),
   (428, "Precondition Required"), (429, "Too Many Requests"),
   (431, "Request Header Fields Too Large"), (451, "Unavailable For Legal Reasons"),
   (500, "Internal Server Error"), (501, "Not Implemented"), (502, "Bad Gateway"),
   (503, "Service Unavailable"), (504, "Gateway Timeout"), (505, "HTTP Version Not Supported"),
   (506, "Variant Also Negotiates"), (507, "Insufficient Storage"), (508, "Loop Detected"),
   (510, "Not Extended"), (511, "Network Authentication Required")]

def statusText (status : Nat) : String :=
  let reason := (statusReasons.lookup status).getD "<unknown status code>"
  s!"{status} {reason}"

structure Header where
  name : String
  value : String
deriving DecidableEq, Repr

namespace Header

def isNameChar (c : Char) : Bool := c.isAlphanum || "!#$%&'*+-.^_`|~".toList.contains c

def isValueChar (c : Char) : Bool := c == '\t' || (0x20 ≤ c.toNat && c.toNat != 0x7f)

def isSendable (h : Header) : Bool :=
  !h.name.isEmpty && h.name.toList.all isNameChar && h.value.toList.all isValueChar

def note (h : Header) : String :=
  let name := Text.asciiLower h.name
  let isBlank (c : Char) : Bool := c == ' ' || c == '\t'
  let value := ((h.value.toList.dropWhile isBlank).reverse.dropWhile isBlank).reverse
  if Text.occurs "key".toList name.toList then
    s!" [{name}: {Text.lower (String.ofList value)}]"
  else ""

end Header

end PriceDesk
