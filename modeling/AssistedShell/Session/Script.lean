import AssistedShell.Pipeline.Launch
import AssistedShell.Pipeline.Reading
import AssistedShell.Session.Builtin

/-! Executing lines, and the scripts that lines may run. A script's lines run
one by one; here-documents take their text from the lines that follow. Scripts
run inside one another up to a limit, which makes every run end. -/

namespace AssistedShell.Session

variable {σ : Type} (h : Host σ)

/-- The most scripts that may run one inside another. -/
def nestingLimit : Nat := 32

/-- Runs the text of a script, which is known under a path. -/
abbrev ScriptRunner (σ : Type) := (path text : String) → Session σ → Nat × Session σ

/-- Runs a script file. -/
def runFile (script : ScriptRunner σ) (path : String) (s : Session σ) : Nat × Session σ :=
  let path := joinPath s.directory path
  match h.readText s.system path with
  | .ok text => script path text s
  | .error f => (1, s.report h ("source: " ++ path ++ ": " ++ f.message))

def runBuiltin (script : ScriptRunner σ) (b : Builtin) (arguments : List String)
    (s : Session σ) : Nat × Session σ :=
  match b with
  | .cd => s.changeDirectory h arguments
  | .exit => s.exit h arguments
  | .help => (0, s.say h helpText)
  | .history => s.history h
  | .export => s.exportVariables h arguments
  | .source =>
    match arguments with
    | path :: _ => runFile h script path s
    | [] => (2, s.report h "source: filename argument required")
  | .call => s.call h (" ".intercalate arguments)
  | .ask => s.ask h (" ".intercalate arguments)

/-- Runs a pipeline of programs. -/
def runPipeline (p : Pipeline) (line : String) (s : Session σ) : Nat × Session σ :=
  let ((result, jobs), system) := p.execute h s.environment s.directory line s.jobs s.system
  let s := { s with jobs, system }
  match result with
  | .ok (.foreground status) => (status, s)
  | .ok (.background job pid) => (0, s.say h ("[" ++ toString job ++ "] " ++ toString pid ++ "\n"))
  | .error f => (1, s.report h f.message)

/-- The built-in command that a pipeline of one stage names, with its arguments. -/
def builtinOf? (p : Pipeline) : Option (Builtin × List String) := do
  let stage ← p.single?
  let b ← Builtin.ofName? stage.name
  return (b, stage.arguments)

/-- Performs what a line says. A faulty or empty line leaves the last status as it is. -/
def perform (script : ScriptRunner σ) (line : String)
    (parsed : Except SyntaxFault (Option Pipeline)) (s : Session σ) : Nat × Session σ :=
  match parsed with
  | .error f => (s.lastStatus, s.report h f.message)
  | .ok none => (s.lastStatus, s)
  | .ok (some p) =>
    let (status, s) :=
      match builtinOf? p with
      | some (b, arguments) => runBuiltin h script b arguments s
      | none => runPipeline h p line s
    (status, { s with lastStatus := status })

/-- The pipeline of a line in the session's environment. -/
def parse (s : Session σ) (line : String) (input : LineSource) :
    Pipeline.Taken (Except SyntaxFault (Option Pipeline)) :=
  Pipeline.ofLine s.environment.get? line input

theorem length_parse_le (s : Session σ) (line : String) (input : LineSource) :
    (s.parse line input).rest.length ≤ input.length := Pipeline.length_ofLine_le _ _ _

/-- A script's line that says nothing: blank, or a comment. -/
def isIdle (line : String) : Bool :=
  let text := line.trimBlank
  text.isEmpty || text.startsWith "#"

/-- Runs lines up to the end of the session; `status` is that of the last line executed. -/
def runLines (script : ScriptRunner σ) (lines : LineSource) (status : Nat) (s : Session σ) :
    Nat × Session σ :=
  match lines with
  | [] | none :: _ => (status, s)
  | some line :: rest =>
    if isIdle line then runLines script rest status s
    else
      let taken := s.parse line rest
      let (status, after) := perform h script line taken.value s
      if after.isOver then (status, after) else runLines script taken.rest status after
termination_by lines.length
decreasing_by
  · simp
  · exact Nat.lt_succ_of_le (length_parse_le _ _ _)

/-- Runs a script with room for `levels` scripts inside one another, itself included. -/
def runScript : Nat → ScriptRunner σ
  | 0, path, _, s => (1, s.report h ("source: " ++ path ++ ": nested too deeply"))
  | levels + 1, _, text, s =>
    let (status, s) :=
      runLines h (runScript levels) (text.textLines.map some) 0 { s with depth := s.depth + 1 }
    (status, { s with depth := s.depth - 1 })

/-- Runs a script where the session stands. -/
def runNested : ScriptRunner σ := fun path text s =>
  runScript h (nestingLimit - s.depth) path text s

/-- Executes a line; `input` holds the lines for its here-documents, and what is left of them
comes back. -/
def execute (s : Session σ) (line : String) (input : LineSource) :
    (Nat × LineSource) × Session σ :=
  let taken := s.parse line input
  let (status, s) := perform h (runNested h) line taken.value s
  ((status, taken.rest), s)

/-- Runs the script in a file. -/
def source (s : Session σ) (path : String) : Nat × Session σ := runFile h (runNested h) path s

/-! ### Startup files -/

/-- Runs one startup file, which may be missing. -/
def runStartupFile (s : Session σ) (path : String) : Session σ :=
  match h.readText s.system path with
  | .ok text => (runNested h path text s).2
  | .error f => if f.kind = .notFound then s else s.report h (path ++ ": " ++ f.message)

/-- Runs the startup files in a directory, up to the end of the session. -/
def runStartupFiles (home : String) : List String → Session σ → Session σ
  | [], s => s
  | name :: names, s =>
    let s := s.runStartupFile h (joinPath home name)
    if s.isOver then s else runStartupFiles home names s

/-- Runs the startup files of the user. -/
def startUp (s : Session σ) : Session σ :=
  match s.home? h with
  | none => s
  | some home => runStartupFiles h home Home.startupFiles s

end AssistedShell.Session
