import AssistedShell.Http.Request
import AssistedShell.Http.Url

/-! A request on its way to a server, and what comes back. -/

namespace AssistedShell.Http

/-- What a server does with a request. -/
inductive Reaction where
  | respond (status : Nat) (headers : Headers) (body : ByteArray)
  | stall
  | drop
  deriving Inhabited

/-- A request as its server reads it. -/
structure Delivery where
  method : String
  target : String
  host : String
  headers : Headers
  body : Option Json
  deriving Inhabited

/-- The value of a header. -/
def Headers.get? (hs : Headers) (name : String) : Option String := hs.lookup name

/-- Headers as they arrive: spaces and tabs around a value are lost. -/
def Headers.received (hs : Headers) : Headers :=
  let isGap := fun c : Char => c == ' ' || c == '\t'
  hs.map fun (name, value) =>
    (name, String.ofList (Text.dropEndWhile isGap (value.toList.dropWhile isGap)))

/-- The fault of a request that cannot be built. -/
def buildFault (url : String) : UrlFault → TransportFault
  | .malformed => .build "builder error"
  | .otherScheme => .build ("builder error for url (" ++ url ++ ")")

/-- The fault of a request that no server takes. -/
def unreachable (u : Url) : TransportFault :=
  .network ("error sending request for url (" ++ u.written ++ ")")

/-- The request on the wire. -/
def Request.deliver (r : Request) (u : Url) : Delivery :=
  let headers :=
    if r.body.isSome && (Headers.get? r.headers "content-type").isNone then
      Headers.insert r.headers "content-type" "application/json"
    else r.headers
  let headers := headers.received
  ⟨r.method, u.target, (Headers.get? headers "host").getD u.authority, headers, r.body⟩

/-- An answer without content: to a `HEAD` request, or by its code. -/
def isBodiless (method : String) (status : Nat) : Bool :=
  method == "HEAD" || status == 204 || status == 304

/-- A code that sends the client elsewhere, if the answer says where. -/
def isRedirect (status : Nat) : Bool := [301, 302, 303, 307, 308].contains status

/-- The text of a body. -/
def textOf (body : ByteArray) : Option String := String.fromUTF8? body

/-- What the sender of a request makes of the server's reaction. -/
def Request.conclude (r : Request) (u : Url) : Reaction → Except TransportFault Response
  | .stall => .error .timeout
  | .drop => .error (unreachable u)
  | .respond status headers body =>
    let headers := headers.received
    if isRedirect status && (Headers.get? headers "location").isSome then .error (unreachable u)
    else if 100 ≤ status && status < 200 then .error (unreachable u)
    else
      let body := if isBodiless r.method status then ByteArray.empty else body
      if isSuccess status then .ok ⟨status, headers, body⟩
      else .error (.status status (some r.url) headers (textOf body))

/-- Sends a request to a server: what the server reads, and what the sender gets. -/
def exchange (r : Request) (reaction : Reaction) :
    Option Delivery × Except TransportFault Response :=
  match Url.ofText r.url with
  | .error e => (none, .error (buildFault r.url e))
  | .ok u => (some (r.deliver u), r.conclude u reaction)

/-- Sends a request where no server listens. -/
def sendNowhere (r : Request) : Except TransportFault Response :=
  match Url.ofText r.url with
  | .error e => .error (buildFault r.url e)
  | .ok u => .error (unreachable u)

end AssistedShell.Http
