import AssistedShell.Assistant.FollowUp
import AssistedShell.History
import AssistedShell.Home
import AssistedShell.Session.Basic
import AssistedShell.Text.Numeral
import AssistedShell.Text.Search

/-! The built-in commands that run no script. -/

namespace AssistedShell.Session

variable {σ : Type} (h : Host σ)

/-! ### Directories -/

/-- The directory that the arguments of `cd` name: the home directory if there are none. -/
def destination? (home : Option String) : List String → Option String
  | [] => home
  | dir :: _ => some (Home.expandTilde home dir)

/-- Goes to a directory, and asks the system where that is. -/
def changeDirectory (s : Session σ) (arguments : List String) : Nat × Session σ :=
  match destination? (s.home? h) arguments with
  | none => (1, s.report h "cd: HOME not set")
  | some dir =>
    let target := joinPath s.directory dir
    match h.changeDirectory target s.system with
    | (.error f, system) =>
      (1, { s with system }.report h ("cd: " ++ target ++ ": " ++ f.message))
    | (.ok (), system) =>
      let s := { s with system }
      match h.directory system with
      | .error f => (1, s.report h ("cd: " ++ f.message))
      | .ok directory => (0, { s with directory })

/-! ### The end of a session -/

/-- The status that a text writes: a whole number of 64 bits, taken modulo 256. -/
def statusOf? (text : String) : Option Nat :=
  let (negative, digits) :=
    match text.toList with
    | '-' :: r => (true, r)
    | '+' :: r => (false, r)
    | cs => (false, cs)
  if digits.isEmpty then none
  else
    match Text.number? 10 digits with
    | none => none
    | some n =>
      let value : Int := if negative then -n else n
      if Int64.minValue.toInt ≤ value ∧ value ≤ Int64.maxValue.toInt then
        some (value % 256).toNat
      else none

/-- Asks for the end of the session. The first time counts. -/
def latch (s : Session σ) (status : Nat) : Session σ :=
  { s with exitLatch := s.exitLatch <|> some status }

def exit (s : Session σ) (arguments : List String) : Nat × Session σ :=
  match arguments with
  | [] => (s.lastStatus, s.latch s.lastStatus)
  | text :: _ =>
    match statusOf? text with
    | some status => (status, s.latch status)
    | none => (2, (s.report h ("exit: " ++ text ++ ": numeric argument required")).latch 2)

/-! ### Help and history -/

def helpText : String :=
  "\nGhost Shell v" ++ version ++ " - Built-in commands:\n\n" ++
  "cd [dir]             Change the current directory (default: HOME)\n" ++
  "exit [n]             Exit the shell with status n\n" ++
  "help                 Display this help message\n" ++
  "history              Display command history\n" ++
  "export NAME=VALUE    Set an environment variable (no arguments: list them)\n" ++
  "source FILE, . FILE  Run the commands in FILE\n" ++
  "call PROMPT          Let the AI run commands for PROMPT and check the result\n" ++
  "ask PROMPT           Show the AI's reply to PROMPT without running anything\n\n" ++
  "Features:\n" ++
  "- Pipelines with |, redirection with <, >, >> and here-documents with <<\n" ++
  "- Background execution using &\n" ++
  "- Command history (use arrow keys)\n" ++
  "- Tab completion for commands and files\n\n"

/-- A number right-aligned in five columns. -/
def inColumn (n : Nat) : String :=
  let digits := toString n
  String.ofList (List.replicate (5 - digits.length) ' ') ++ digits

/-- The lines that show entries with their numbers. -/
def numbered (entries : List String) : String :=
  String.join (entries.mapIdx fun i e => inColumn (i + 1) ++ "  " ++ e ++ "\n")

def history (s : Session σ) : Nat × Session σ :=
  match History.entries h s.settings.historyFile s.system with
  | .ok entries => (0, s.say h (numbered entries))
  | .error f => (1, s.report h ("history: " ++ f.message))

/-! ### Variables -/

/-- A name that a variable can be given: a letter or an underscore, then those and digits. -/
def isIdentifier (name : List Char) : Bool :=
  match name with
  | [] => false
  | c :: r => (c == '_' || c.isAlpha) && r.all fun c => c == '_' || c.isAlphanum

/-- What an argument of `export` asks for. -/
inductive Assignment where
  | invalid
  /-- A name alone: what it has is known to programs already. -/
  | mention
  | assign (name value : String)
  deriving DecidableEq, Repr

def Assignment.ofArgument (argument : String) : Assignment :=
  match Text.splitAt? '=' argument.toList with
  | some (name, value) =>
    if isIdentifier name then .assign (String.ofList name) (String.ofList value) else .invalid
  | none => if isIdentifier argument.toList then .mention else .invalid

/-- Performs assignments in turn; `status` is the result so far. A value that the system does
not take breaks the shell down. -/
def assignAll (s : Session σ) (status : Nat) : List String → Nat × Session σ
  | [] => (status, s)
  | argument :: rest =>
    match Assignment.ofArgument argument with
    | .invalid =>
      let s := s.report h ("export: " ++ String.singleton (Char.ofNat 0x60) ++ argument ++
        "': not a valid identifier")
      assignAll s 1 rest
    | .mention => assignAll s status rest
    | .assign name value =>
      if Environment.Settable name value then
        assignAll { s with environment := s.environment.set name value } status rest
      else (status, { s with crashed := true })

/-- Sets variables, or lists them all. -/
def exportVariables (s : Session σ) (arguments : List String) : Nat × Session σ :=
  if arguments.isEmpty then
    (0, s.say h (String.join (s.environment.sorted.map fun b => b.entry ++ "\n")))
  else s.assignAll h 0 arguments

/-! ### The assistant -/

/-- Gets the session its assistant, unless that was tried before. -/
def wakeAssistant (s : Session σ) : Session σ :=
  match s.assistant with
  | .ready _ | .unavailable _ => s
  | .untried =>
    match Service.setUp h s.settings s.environment s.system with
    | .error f => { s with assistant := .unavailable f.message }
    | .ok service =>
      if Conversation.Reservable s.settings.entryLimit then
        { s with assistant := .ready (.ofService service s.settings) }
      else { s with crashed := true }

/-- Does something with the session's assistant, if there is one. -/
def withAssistant (s : Session σ) (act : Assistant σ → Session σ → Nat × Session σ) :
    Nat × Session σ :=
  let s := s.wakeAssistant h
  match s.assistant with
  | .ready a => act a s
  | .unavailable reason => (1, s.report h ("AI mode unavailable: " ++ reason))
  | .untried => (1, s)

/-- What is to be done for a request. -/
def errand (s : Session σ) (request : String) : Errand where
  request := request
  environment := s.environment
  directory := s.directory
  prompt := Prompt.render Prompt.assistantUser s.directory (s.home? h) false
  previewMs := s.settings.previewMs
  limit := s.settings.followUpLimit

/-- Says how the work on a request ended, where that needs saying. -/
def announce (s : Session σ) (o : Outcome) : Session σ :=
  match o.verdict with
  | .success => s
  | .unresolved => s.report h "call: no further commands were suggested"
  | .exhausted =>
    s.report h ("call: giving up after " ++ toString o.attempts ++ " follow-up attempts")

/-- Lets the assistant carry out a request. -/
def call (s : Session σ) (request : String) : Nat × Session σ :=
  if request.isAllBlank then (2, s.report h "call: usage: call <prompt>")
  else
    s.withAssistant h fun a s =>
      let ((result, a), system) := (s.errand h request).carryOut h a s.system
      let s := { s with assistant := .ready a, system }
      match result with
      | .ok outcome => (outcome.status, s.announce h outcome)
      | .error f => (1, s.report h ("call: " ++ f.message))

/-- Shows the assistant's reply. -/
def ask (s : Session σ) (question : String) : Nat × Session σ :=
  if question.isAllBlank then (2, s.report h "ask: usage: ask <prompt>")
  else
    s.withAssistant h fun a s =>
      let ((result, a), system) := (a.setActing false).request question s.system
      let s := { s with assistant := .ready a, system }
      match result with
      | .ok reply => (0, s.say h (reply.trimBlankEnd ++ "\n"))
      | .error f => (1, s.report h ("ask: " ++ (AssistantFault.request f).message))

end AssistedShell.Session
