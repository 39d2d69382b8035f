import AssistedShell.Http.Status
import AssistedShell.Json

/-! Requests to a service, its answers, and what can keep them apart. -/

namespace AssistedShell.Http

/-- Header names, in lower case, with their values. -/
abbrev Headers := List (String × String)

/-- Gives a header a value, in place of any it has. -/
def Headers.insert (hs : Headers) (name value : String) : Headers :=
  hs.filter (·.1 ≠ name) ++ [(name, value)]

structure Request where
  method : String
  url : String
  headers : Headers := []
  body : Option Json := none
  timeoutMs : Option Nat := none
  deriving Repr, Inhabited

structure Response where
  status : Nat
  headers : Headers
  body : ByteArray
  deriving Inhabited

/-- Why a request got no good answer. -/
inductive TransportFault where
  | status (code : Nat) (url : Option String) (headers : Headers) (body : Option String)
  | timeout
  | network (reason : String)
  | build (reason : String)
  deriving Repr, Inhabited

def TransportFault.message : TransportFault → String
  | .status code _ _ _ => "http " ++ statusLine code
  | .timeout => "request timed out"
  | .network reason => "network error: " ++ reason
  | .build reason => "failed to build request: " ++ reason

/-- A character that a header value may hold: any but the controls, the tab excepted. -/
def isHeaderChar (c : Char) : Bool := c == '\t' || (' ' ≤ c && c ≠ '\x7f')

/-- The request with a bearer token; one that no header can hold is left out. -/
def Request.authorize (r : Request) (token : String) : Request :=
  if token.toList.all isHeaderChar then
    { r with headers := Headers.insert r.headers "authorization" ("Bearer " ++ token) }
  else r

/-- A service at a base address. -/
structure Provider where
  name : String
  baseUrl : String
  timeoutMs : Option Nat
  deriving Repr, Inhabited

namespace Provider

def defaultBaseUrl : String := "https://api.openai.com/v1"

/-- The public service, or one that speaks as it does at another address. -/
def standard (baseUrl : Option String) (timeoutMs : Option Nat) : Provider :=
  ⟨"openai", baseUrl.getD defaultBaseUrl, timeoutMs⟩

/-- The address of a path below the base, with one slash between them. -/
def urlFor (p : Provider) (path : String) : String :=
  let base := (p.baseUrl.toList.reverse.dropWhile (· == '/')).reverse
  let path := path.toList.dropWhile (· == '/')
  String.ofList (if path.isEmpty then base else base ++ '/' :: path)

/-- A request without headers and body. -/
def request (p : Provider) (method path : String) : Request :=
  ⟨method, p.urlFor path, [], none, p.timeoutMs⟩

end Provider

end AssistedShell.Http
