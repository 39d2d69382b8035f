import AssistedShell.Assistant.Completion
import AssistedShell.Assistant.Conversation
import AssistedShell.Assistant.Credential
import AssistedShell.Fault
import AssistedShell.Host
import AssistedShell.Settings.Basic

/-! The assistant of a session: the service that answers, what was said so far,
and whether its commands are to be acted on. -/

namespace AssistedShell

/-- Answers requests, at the price of a change of the system. -/
abbrev Service (σ : Type) := CompletionRequest → σ → Except CompletionFault String × σ

structure Assistant (σ : Type) where
  service : Service σ
  instructions : String
  conversation : Conversation
  lastReply : Option String := none
  /-- Whether the last request asked for commands to be run. -/
  acting : Bool := false

/-- Why the assistant could not do what was asked. -/
inductive AssistantFault where
  | request (fault : CompletionFault)
  | terminal (fault : Fault)
  deriving Repr, Inhabited

def AssistantFault.message : AssistantFault → String
  | .request f => "request failed: " ++ f.message
  | .terminal f => "terminal error: " ++ f.message

/-- Why there can be no service at all. -/
inductive SetUpFault where
  | credential (fault : CredentialFault)
  | client (fault : Http.TransportFault)
  deriving Repr, Inhabited

def SetUpFault.message : SetUpFault → String
  | .credential f => f.message
  | .client f => "failed to set up HTTP client: " ++ f.message

/-- Sends requests, at the price of a change of the system. -/
abbrev Sender (σ : Type) :=
  Http.Request → σ → Except Http.TransportFault Http.Response × σ

/-- The service at the address of the settings. -/
def Service.standard {σ : Type} (explain : List UInt8 → String) (send : Sender σ)
    (settings : Settings) (key : Credential) : Service σ := fun request s =>
  let provider := Http.Provider.standard settings.baseUrl (settings.timeoutSecs.map (· * 1000))
  let (answer, s) := send (request.toHttp provider settings.model (some key.key)) s
  (Completion.conclude explain answer, s)

/-- Sets up the service that the settings ask for: first its key is read, and then comes what sends
its requests. -/
def Service.setUp {σ : Type} (h : Host σ) (settings : Settings) (env : Environment) (s : σ) :
    Except SetUpFault (Service σ) :=
  match Credential.ofEnvironment env settings.keyVariable with
  | .error f => .error (.credential f)
  | .ok key =>
    match h.setUpClient s env with
    | .error reason => .error (.client (.build reason))
    | .ok () => .ok (.standard h.explain h.send settings key)

namespace Assistant

variable {σ : Type}

/-- An assistant with nothing said yet. -/
def ofService (service : Service σ) (settings : Settings) : Assistant σ where
  service
  instructions := settings.instructions
  conversation := ⟨settings.entryLimit, settings.byteLimit, []⟩

/-- Adds an entry to the conversation. -/
def record (a : Assistant σ) (origin : Origin) (text : String) : Assistant σ :=
  { a with conversation := a.conversation.append origin text }

def setActing (a : Assistant σ) (acting : Bool) : Assistant σ := { a with acting }

/-- What the service is asked next. -/
def pending (a : Assistant σ) : CompletionRequest := ⟨a.instructions, a.conversation.messages⟩

/-- Keeps a reply. -/
def receive (a : Assistant σ) (reply : String) : Assistant σ :=
  { a.record .assistant reply with lastReply := some reply }

/-- Says something to the service after all that was said before. What is said is kept in any
case, the reply only if there is one. -/
def request (a : Assistant σ) (text : String) (s : σ) :
    (Except CompletionFault String × Assistant σ) × σ :=
  let a := a.record .user text
  match a.service a.pending s with
  | (.error f, s) => ((.error f, a), s)
  | (.ok reply, s) => ((.ok reply, a.receive reply), s)

end Assistant

end AssistedShell
