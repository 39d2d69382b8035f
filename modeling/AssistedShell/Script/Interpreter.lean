import AssistedShell.Machine.Tool.Basic
import AssistedShell.Script.Reading
import AssistedShell.Script.Setting

/-! The state of a script that runs: variables, functions, parameters, and the
process that runs it. -/

namespace AssistedShell.Script

open Machine (Context Act Termination Loader)

structure Variable where
  name : String
  /-- None if the variable is only known by name. -/
  value : Option String
  exported : Bool := false
  /-- The value stays as it is. -/
  constant : Bool := false
  deriving Inhabited

/-- What a function that runs has put aside, to be restored when it returns. -/
structure Frame where
  parameters : List String
  loops : Nat
  bindings : List (String × Option Variable) := []
  settings : Option (List Setting) := none
  deriving Inhabited

structure Interpreter where
  context : Context
  /-- The name under which the script runs. -/
  title : String
  parameters : List String := []
  bindings : List Variable := []
  functions : List (String × Command) := []
  bodies : Array Word := #[]
  status : Nat := 0
  background : Option Pid := none
  /-- The processes that run beside the script. -/
  children : List Pid := []
  line : Nat := 1
  /-- The working directory by the name under which it was entered. -/
  here : Option String := none
  /-- The settings that are on. -/
  settings : List Setting := []
  /-- Somebody looks at the status of what runs, so that its failure ends nothing. -/
  lenient : Bool := false
  /-- The functions that run, the innermost first. -/
  frames : List Frame := []
  /-- The number of loops around the command in the function that runs. -/
  loops : Nat := 0
  /-- What to do on each signal; on number zero, at the end. -/
  traps : List (Nat × String) := []
  /-- Signals that came and have not been answered. -/
  signals : List Nat := []
  /-- The built-in command that runs, as complaints name it. -/
  builtin : Option String := none
  /-- A process of its own runs a part of the script. -/
  forked : Bool := false
  /-- How far the argument before the next has been read for options. -/
  optionOffset : Nat := 0
  deriving Inhabited

/-- What breaks the order of commands. -/
inductive Jump where
  | exit
  /-- The command cannot go on. -/
  | failed
  | killed (signal : Fin 128)
  | leave (loops : Nat)
  | again (loops : Nat)
  | done
  deriving DecidableEq, Repr, Inhabited

/-- The complaint about a working directory that is no longer part of the tree. -/
def lostDirectory : String := "getcwd() failed: No such file or directory"

namespace Interpreter

def has (i : Interpreter) (s : Setting) : Bool := i.settings.contains s

def turnedOn (i : Interpreter) (s : Setting) : Interpreter :=
  if i.has s then i else { i with settings := s :: i.settings }

def valueOf? (i : Interpreter) (name : String) : Option Variable :=
  i.bindings.find? (·.name = name)

def assign (i : Interpreter) (name value : String) : Interpreter :=
  match i.valueOf? name with
  | some v =>
    let changed := { v with value := some value }
    { i with bindings := i.bindings.map fun w => if w.name = name then changed else w }
  | none => { i with bindings := i.bindings ++ [{ name, value := some value }] }

def unset (i : Interpreter) (name : String) : Interpreter :=
  { i with bindings := i.bindings.filter (·.name ≠ name) }

/-- Changes a variable, if there is one. -/
def change (i : Interpreter) (name : String) (f : Variable → Variable) : Interpreter :=
  { i with bindings := i.bindings.map fun w => if w.name = name then f w else w }

def markExported (i : Interpreter) (name : String) : Interpreter :=
  i.change name fun v => { v with exported := true }

/-- Puts a variable back as it was, if it was there. -/
def restore (i : Interpreter) (name : String) (was : Option Variable) : Interpreter :=
  match was with
  | none => i.unset name
  | some v =>
    if (i.valueOf? name).isSome then i.change name fun _ => v
    else { i with bindings := i.bindings ++ [v] }

/-- Puts back what a function has put aside. -/
def leave (i : Interpreter) (f : Frame) : Interpreter :=
  let i := f.bindings.foldl (fun i (x, v) => i.restore x v) i
  { i with
    parameters := f.parameters
    loops := f.loops
    settings := f.settings.getD i.settings
    frames := i.frames.tail }

/-- Variables that are known before any is set. -/
def firstNames : List String := ["IFS", "MAIL", "MAILPATH", "OPTIND", "PATH", "PS1", "PS2", "PS4"]

/-- Where a variable stands among those handed on: by a number made of its name, and after those
known before. -/
def rank (name : String) : Nat :=
  let codes := name.toUTF8.toList.map UInt8.toNat
  let place := (codes.headD 0 * 16 + codes.foldl (· + ·) 0) % 39
  2 * place + if firstNames.contains name then 0 else 1

/-- The environment of the programs that the script runs. -/
def environment (i : Interpreter) : Environment :=
  let vs := (i.bindings.filter (·.exported)).mergeSort fun v w => rank v.name ≤ rank w.name
  ⟨vs.filterMap fun v => v.value.map (⟨v.name, ·⟩)⟩

/-- The characters that separate fields. -/
def separators (i : Interpreter) : List Char :=
  (((i.valueOf? "IFS").bind (·.value)).getD " \t\n").toList

/-- The value of a parameter or variable. -/
def value? (i : Interpreter) (name : String) : Option String :=
  match name with
  | "@" => if i.parameters.isEmpty then none else some (" ".intercalate i.parameters)
  | "*" =>
    if i.parameters.isEmpty then none
    else some ((String.ofList (i.separators.take 1)).intercalate i.parameters)
  | "#" => some (toString i.parameters.length)
  | "?" => some (toString i.status)
  | "$" => some (toString i.context.pid)
  | "!" => i.background.map toString
  | "-" => some (Setting.letters i.settings)
  | "0" => some i.title
  | _ =>
    match Machine.Tool.natOf? name with
    | some n => i.parameters[n - 1]?
    | none => (i.valueOf? name).bind (·.value)

/-- The search path of a script whose environment has none. -/
def defaultPath : String := "/usr/local/sbin:/usr/local/bin:/usr/sbin:/usr/bin:/sbin:/bin"

/-- A script that starts in a process. -/
def start (c : Context) (title : String) (parameters : List String) (directory : Option String) :
    Interpreter :=
  let valid := c.environment.bindings.filter fun b => isName b.name.toList
  let i : Interpreter := {
    context := c
    title
    parameters
    here := directory
    bindings := valid.map fun b => { name := b.name, value := some b.value, exported := true } }
  let i := (i.assign "IFS" " \t\n").assign "OPTIND" "1"
  let i := if (i.valueOf? "PATH").isSome then i else i.assign "PATH" defaultPath
  let i := i.assign "PPID" (toString c.parent)
  (i.assign "PWD" (directory.getD "")).markExported "PWD"

end Interpreter

abbrev Run := ExceptT Jump (StateT Interpreter Act)

/-- What the parts of the interpreter need from the whole: to run a command, and to run a
program. -/
structure Recursion where
  run : Command → Run Unit
  launch : Loader

namespace Run

def machine {α : Type} (a : Act α) : Run α := ExceptT.lift (StateT.lift a)

def context : Run Context := return (← get).context

def setStatus (n : Nat) : Run Unit := modify fun i => { i with status := n }

def modifyContext (f : Context → Context) : Run Unit :=
  modify fun i => { i with context := f i.context }

/-- Time passes up to a moment. -/
def waitUntil (now : Nat) : Run Unit := modifyContext (·.later now)

def say (text : String) : Run Unit := do machine ((← context).say text)

/-- A complaint with the script's name and line, and the built-in command that runs. -/
def complain (message : String) : Run Unit := do
  let i ← get
  let whose := (i.builtin.map (· ++ ": ")).getD ""
  machine (i.context.complain
    (i.title ++ ": " ++ toString i.line ++ ": " ++ whose ++ message ++ "\n"))

/-- Complains, and gives the command up. -/
def abort {α : Type} (message : String) : Run α := do
  complain message
  setStatus 2
  throw .failed

/-- Sets a variable, unless its value stays as it is. -/
def assign (name value : String) : Run Unit := do
  let i ← get
  if ((i.valueOf? name).map (·.constant)).getD false then abort (name ++ ": is read only")
  modify (·.assign name value)
  if i.has .allexport then modify (·.markExported name)
  if name = "OPTIND" then modify fun i => { i with optionOffset := 0 }

/-- Does something, and what must follow it in any case. -/
def ensuring (body : Run Unit) (after : Run Unit) : Run Unit := do
  try body
  catch j =>
    after
    throw j
  after

end Run

/-! ### Running text -/

/-- Runs the lines of a text, each read when those before it have run. -/
def runLines (self : Recursion) : Nat → Cursor → Run Unit
  | 0, _ => return
  | fuel + 1, cursor => do
    match readLine.run { cursor with bodies := (← get).bodies } with
    | .error e =>
      modify fun i => { i with line := e.line }
      Run.abort e.message
    | .ok (none, _) => return
    | .ok (some c, cursor) =>
      modify fun i => { i with bodies := cursor.bodies }
      self.run c
      runLines self fuel cursor

/-- Runs a text in this process. -/
def runText (self : Recursion) (text : String) : Run Unit :=
  runLines self (text.length + 1) { rest := text.toList }

/-- Runs something to its end, and then what was set aside for the end. The signal that broke it
off is given back. -/
def conclude (self : Recursion) (body : Run Unit) : Run (Option (Fin 128)) := do
  let ended : Option Jump ← try body; pure none catch j => pure (some j)
  if let some (.killed signal) := ended then return some signal
  match (← get).traps.lookup 0 with
  | none => return none
  | some action =>
    let status := (← get).status
    modify fun i => { i with traps := i.traps.filter (·.1 ≠ 0) }
    let ended : Option Jump ← try runText self action; pure none catch j => pure (some j)
    match ended with
    | some (.killed signal) => return some signal
    | some _ => return none
    | none =>
      Run.setStatus status
      return none

/-- Runs something in a process of its own. Only its status, the time and the signals for the
script remain. -/
def apart (self : Recursion) (body : Run Unit) : Run (Option (Fin 128)) := do
  let before ← get
  modify fun i => { i with forked := true, traps := i.traps.filter (·.2.isEmpty) }
  let signal? ← conclude self body
  let after ← get
  let status :=
    match signal? with
    | some signal => 128 + signal.val
    | none => after.status
  set { before with
    status
    bodies := after.bodies
    signals := after.signals
    context := before.context.later after.context.now }
  return signal?

/-- Signals that change nothing unless something is set on them. -/
def isHarmless (signal : Nat) : Bool := [0, 17, 18, 23, 28].contains signal

/-- Signals that nothing can be set on. -/
def isFinal (signal : Nat) : Bool := signal = 9 || signal = 19

/-- Does what the signals ask for that came. A part in a process of its own leaves them to the
script. -/
def answerSignals (self : Recursion) : Run Unit := do
  let i ← get
  if i.forked || i.signals.isEmpty then return
  modify fun i => { i with signals := [] }
  for n in i.signals do
    match if isFinal n then none else i.traps.lookup n with
    | some action =>
      let status := (← get).status
      runText self action
      Run.setStatus status
    | none =>
      if h : n < 128 then
        unless isHarmless n do throw (.killed ⟨n, h⟩)

end AssistedShell.Script
