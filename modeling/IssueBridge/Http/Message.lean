import IssueBridge.Http.Url
import IssueBridge.Json.Basic
import IssueBridge.Text.Blank
import IssueBridge.Text.Raw

/-!
# Requests and replies

What is sent to a server and what comes back.
-/

namespace IssueBridge.Http

/-- What a request asks the server to do. -/
inductive Method where
  | get
  | post
  | put
  deriving DecidableEq, Inhabited

def Method.name : Method → String
  | get => "GET"
  | post => "POST"
  | put => "PUT"

structure Request where
  method : Method
  url : Url
  authorization : Option String
  accept : String
  /-- The name of the program that asks. -/
  agent : Option String
  body : Option Json
  deriving Inhabited

namespace Request

/-- A character that may stand in a header. -/
def isHeaderChar (c : Char) : Bool :=
  c == '\t' || (0x20 ≤ c.toNat && c.toNat != 0x7F)

/-- A request, unless its address or its authorization cannot be sent. -/
def make? (method : Method) (address : String) (query : List (String × String))
    (authorization : Option String) (accept : String) (agent : Option String)
    (body : Option Json) : Option Request := do
  let url ← Url.parse? address
  if (authorization.getD "").toList.all isHeaderChar then
    some ⟨method, url.withoutUser.withForm query, authorization, accept, agent, body⟩
  else none

end Request

/-- What a server answers. -/
structure Reply where
  status : Nat
  headers : List (String × String)
  body : RawText
  deriving DecidableEq, Inhabited

namespace Reply

/-- A header whose text is printable ASCII; the case of its name does not matter. -/
def header? (r : Reply) (name : String) : Option String :=
  let same := fun h : String × String => h.1.toList.map Char.toLower == name.toList
  match r.headers.find? same with
  | some (_, value) =>
    if value.toList.all fun c => c == '\t' || (0x20 ≤ c.toNat && c.toNat < 0x7F) then some value
    else none
  | none => none

def isSuccess (r : Reply) : Bool :=
  200 ≤ r.status && r.status < 300

def isServerError (r : Reply) : Bool :=
  500 ≤ r.status && r.status < 600

end Reply

/-- The words for the statuses that have any. -/
def reasons : List (Nat × String) :=
  [(100, "Continue"), (101, "Switching Protocols"), (102, "Processing"), (200, "OK"),
    (201, "Created"), (202, "Accepted"), (203, "Non Authoritative Information"),
    (204, "No Content"), (205, "Reset Content"), (206, "Partial Content"),
    (207, "Multi-Status"), (208, "Already Reported"), (226, "IM Used"),
    (300, "Multiple Choices"), (301, "Moved Permanently"), (302, "Found"), (303, "See Other"),
    (304, "Not Modified"), (305, "Use Proxy"), (307, "Temporary Redirect"),
    (308, "Permanent Redirect"), (400, "Bad Request"), (401, "Unauthorized"),
    (402, "Payment Required"), (403, "Forbidden"), (404, "Not Found"),
    (405, "Method Not Allowed"), (406, "Not Acceptable"),
    (407, "Proxy Authentication Required"), (408, "Request Timeout"), (409, "Conflict"),
    (410, "Gone"), (411, "Length Required"), (412, "Precondition Failed"),
    (413, "Payload Too Large"), (414, "URI Too Long"), (415, "Unsupported Media Type"),
    (416, "Range Not Satisfiable"), (417, "Expectation Failed"), (418, "I'm a teapot"),
    (421, "Misdirected Request"), (422, "Unprocessable Entity"), (423, "Locked"),
    (424, "Failed Dependency"), (425, "Too Early"), (426, "Upgrade Required"),
    (428, "Precondition Required"), (429, "Too Many Requests"),
    (431, "Request Header Fields Too Large"), (451, "Unavailable For Legal Reasons"),
    (500, "Internal Server Error"), (501, "Not Implemented"), (502, "Bad Gateway"),
    (503, "Service Unavailable"), (504, "Gateway Timeout"), (505, "HTTP Version Not Supported"),
    (506, "Variant Also Negotiates"), (507, "Insufficient Storage"), (508, "Loop Detected"),
    (510, "Not Extended"), (511, "Network Authentication Required")]

def statusLine (status : Nat) : String :=
  toString status ++ " " ++ (reasons.lookup status).getD "<unknown status code>"

end IssueBridge.Http
