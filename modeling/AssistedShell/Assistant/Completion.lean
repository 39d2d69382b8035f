import AssistedShell.Assistant.Credential
import AssistedShell.Assistant.Message
import AssistedShell.Http.Request
import AssistedShell.Json.Document
import AssistedShell.Text.Blank

/-! Completions: the request that carries a conversation to the service, and the
text taken from its answer. -/

namespace AssistedShell

/-- Why a completion failed. -/
inductive CompletionFault where
  | transport (fault : Http.TransportFault)
  | emptyResponse
  | undecodable (reason : String)
  | missingContent
  deriving Repr, Inhabited

def CompletionFault.message : CompletionFault → String
  | .transport f => f.message
  | .emptyResponse => "completion service returned an empty response"
  | .undecodable reason => "failed to decode completion response: " ++ reason
  | .missingContent => "completion response has no `choices[0].message.content`"

/-- What is asked of a completion service. -/
structure CompletionRequest where
  instructions : String
  messages : List Message
  deriving DecidableEq, Repr, Inhabited

namespace CompletionRequest

/-- A message as a value. -/
def encodeMessage (m : Message) : Json :=
  .object [("role", .string m.role.name), ("content", .string m.content)]

/-- The body of a request: the instructions come first, the messages follow. -/
def body (r : CompletionRequest) (model : String) : Json :=
  .object [("model", .string model),
    ("messages", .array ((⟨.system, r.instructions⟩ :: r.messages).map encodeMessage))]

def path : String := "chat/completions"

/-- The whole request to a provider, with the token if there is one. -/
def toHttp (r : CompletionRequest) (provider : Http.Provider) (model : String)
    (token : Option String) : Http.Request :=
  let bare := { provider.request "POST" path with body := some (r.body model) }
  match token with
  | none => bare
  | some t => bare.authorize t

end CompletionRequest

/-! ### The text of an answer -/

namespace Completion

open Json (Document)

/-- The member `name` of an object that may have it once. Names must be text; without one there
is no result. -/
def member? (name : String) : List (List UInt8 × Document) → Option (Option Document)
  | [] => some none
  | (key, value) :: r =>
    match Json.text? key, member? name r with
    | some k, some found =>
      if k = name then (if found.isSome then none else some (some value)) else some found
    | _, _ => none

/-- A content: a text or nothing. -/
def content? : Document → Option (Option String)
  | .null => some none
  | .string written => (Json.text? written).map some
  | _ => none

/-- The content of a message, which may stand alone in an array. -/
def message? : Document → Option (Option String)
  | .null => some none
  | .object ms =>
    match member? "content" ms with
    | none => none
    | some none => some none
    | some (some d) => content? d
  | .array [d] => content? d
  | _ => none

/-- The content of a choice. -/
def choice? : Document → Option (Option String)
  | .object ms =>
    match member? "message" ms with
    | none => none
    | some none => some none
    | some (some d) => message? d
  | .array [d] => message? d
  | _ => none

/-- The contents of all choices. -/
def choices? : Document → Option (List (Option String))
  | .array items => items.mapM choice?
  | _ => none

/-- The contents of all choices of an answer. -/
def answer? : Document → Option (List (Option String))
  | .object ms =>
    match member? "choices" ms with
    | none => none
    | some none => some []
    | some (some d) => choices? d
  | .array [] => some []
  | .array [d] => choices? d
  | _ => none

/-- A blank byte of an answer. -/
def isBlankByte (b : UInt8) : Bool := Json.isGap b || b == 0x0C

/-- The content of the first choice of an answer; `explain` has the words for one that cannot be
decoded. -/
def extract (explain : List UInt8 → String) (body : List UInt8) :
    Except CompletionFault String :=
  if body.all isBlankByte then .error .emptyResponse
  else
    match (Document.ofBytes? body).bind answer? with
    | none => .error (.undecodable (explain body))
    | some choices =>
      match choices with
      | some content :: _ => if content.isAllBlank then .error .emptyResponse else .ok content
      | _ => .error .missingContent

/-- What comes of an answer or its failure. -/
def conclude (explain : List UInt8 → String) :
    Except Http.TransportFault Http.Response → Except CompletionFault String
  | .error f => .error (.transport f)
  | .ok r => extract explain r.body.toList

end Completion

end AssistedShell
