import AssistedShell.Session.Dialogue
import AssistedShell.Settings.File

/-! The command line of the shell: what its arguments ask for, and a whole run
from the arguments to the exit status. -/

namespace AssistedShell.CommandLine

/-- How a session is asked for. -/
structure Options where
  command : Option String := none
  model : Option String := none
  /-- Whether the startup files are left out. -/
  bare : Bool := false
  script : Option String := none
  deriving DecidableEq, Repr, Inhabited

/-- What the arguments ask for. -/
inductive Order where
  | help
  | version
  | session (options : Options)
  | misuse
  deriving DecidableEq, Repr, Inhabited

/-- An option that takes a value. -/
inductive Valued where
  | command | model
  deriving DecidableEq, Repr

namespace Options

/-- Gives an option its value, once. -/
def give (o : Options) (option : Valued) (value : String) : Option Options :=
  match option with
  | .command => if o.command.isSome then none else some { o with command := some value }
  | .model => if o.model.isSome then none else some { o with model := some value }

/-- Leaves the startup files out; that is said once. -/
def leaveOut (o : Options) : Option Options := if o.bare then none else some { o with bare := true }

/-- Names the script; there is one at most, and it has a name. -/
def run (o : Options) (script : String) : Option Options :=
  if o.script.isSome || script.isEmpty then none else some { o with script := some script }

end Options

/-- An argument that is no value: it begins with a dash and is more than that. -/
def looksLikeOption (argument : String) : Bool :=
  argument.startsWith "-" && argument ≠ "-"

/-- What one argument amounts to. -/
inductive Reading where
  | done (options : Options)
  /-- The next argument is the value of an option. -/
  | wants (option : Valued)
  | order (order : Order)

def Reading.ofOptions : Option Options → Reading
  | some o => .done o
  | none => .order .misuse

/-- A value written behind its option, with an equals sign on demand. -/
def attached : List Char → String
  | '=' :: r => String.ofList r
  | cs => String.ofList cs

/-- Reads the first letter of an argument that begins with one dash; the others may be its
value. -/
def readShort (o : Options) : List Char → Reading
  | ['c'] => .wants .command
  | 'c' :: r => .ofOptions (o.give .command (attached r))
  | ['m'] => .wants .model
  | 'm' :: r => .ofOptions (o.give .model (attached r))
  | 'h' :: _ => .order .help
  | 'V' :: _ => .order .version
  | _ => .order .misuse

/-- Reads an argument that begins with two dashes. -/
def readLong (o : Options) (name : List Char) : Reading :=
  match Text.splitAt? '=' name with
  | some (name, value) =>
    if name = "model".toList then .ofOptions (o.give .model (String.ofList value))
    else .order .misuse
  | none =>
    if name = "help".toList then .order .help
    else if name = "version".toList then .order .version
    else if name = "norc".toList then .ofOptions o.leaveOut
    else if name = "model".toList then .wants .model
    else .order .misuse

def readOne (o : Options) (argument : String) : Reading :=
  match argument.toList with
  | '-' :: '-' :: name => readLong o name
  | '-' :: c :: r => readShort o (c :: r)
  | _ => .ofOptions (o.run argument)

/-- Options at the end of the arguments. A command and a script exclude each other. -/
def settle (o : Options) : Order :=
  if o.command.isSome && o.script.isSome then .misuse else .session o

/-- Reads arguments that are all names of scripts. -/
def readScripts (o : Options) : List String → Order
  | [] => settle o
  | a :: r =>
    match o.run a with
    | some o => readScripts o r
    | none => .misuse

/-- Reads arguments from left to right; what cannot be right ends it at once. -/
def read (o : Options) : List String → Order
  | [] => settle o
  | a :: r =>
    if a = "--" then readScripts o r
    else
      match readOne o a, r with
      | .order order, _ => order
      | .done o, r => read o r
      | .wants _, [] => .misuse
      | .wants option, value :: r =>
        if looksLikeOption value then .misuse
        else
          match o.give option value with
          | some o => read o r
          | none => .misuse

/-- What the arguments ask for. -/
def Order.ofArguments (arguments : List String) : Order := read {} arguments

def usage : String := "Usage: ghsh [OPTIONS] [SCRIPT]\n"

def help : String :=
  let tick := String.singleton (Char.ofNat 0x60)
  "Ghost Shell: an interactive shell with an AI command mode\n\n" ++ usage ++
  "\nArguments:\n" ++
  "  [SCRIPT]  Run the commands in SCRIPT instead of reading them interactively\n" ++
  "\nOptions:\n" ++
  "  -c <COMMAND>         Run COMMAND and exit with its status\n" ++
  "  -m, --model <MODEL>  Model used by " ++ tick ++ "call" ++ tick ++ " and " ++ tick ++ "ask" ++
    tick ++ "\n" ++
  "      --norc           Do not source ~/.ghsh_profile and ~/.ghshrc\n" ++
  "  -h, --help           Print help\n" ++
  "  -V, --version        Print version\n"

def versionLine : String := "ghsh-cli " ++ version ++ "\n"

/-! ### A run -/

variable {σ : Type} (h : Host σ)

/-- Says why the run cannot go on. -/
def fail (message : String) (s : σ) : Nat × σ :=
  (1, (h.writeErr ("Error: " ++ message ++ "\n") s).2)

/-- Makes the log file. -/
def openLog (settings : Settings) (s : σ) : Except Fault Unit × σ :=
  match h.makeDirectories settings.logDirectory s with
  | (.error f, s) => (.error f, s)
  | (.ok (), s) => h.makePrivate (joinPath settings.logDirectory "ghsh.log") s

/-- Makes the log file, or says why there is none. -/
def startLog (settings : Settings) (s : σ) : σ :=
  match openLog h settings s with
  | (.ok (), s) => s
  | (.error f, s) => (h.writeErr ("ghsh: logging disabled: " ++ f.message ++ "\n") s).2

/-- The exit code of a process that broke down. -/
def crashCode : Nat := 101

/-- The end of a run. -/
def conclude (s : Session σ) : Nat × σ :=
  (if s.crashed then crashCode else s.exitStatus, s.system)

/-- Runs a session as the options say. -/
def conduct (o : Options) (s : Session σ) : Nat × σ :=
  match o.command, o.script with
  | some command, _ => conclude (s.execute h command []).2
  | none, some script => conclude (s.source h script).2
  | none, none =>
    match s.interact h (!o.bare) with
    | (.ok (), s) => conclude s
    | (.error f, s) => fail h f.message s.system

/-- A whole run: its exit status and what it leaves behind. -/
def run (env : Environment) (arguments : List String) (s : σ) : Nat × σ :=
  match Order.ofArguments arguments with
  | .help => (0, (h.writeOut help s).2)
  | .version => (0, (h.writeOut versionLine s).2)
  | .misuse => (2, (h.writeErr usage s).2)
  | .session o =>
    match Settings.load h env o.model s with
    | .error f => fail h f.message s
    | .ok settings =>
      let s := startLog h settings s
      match Session.start h settings env s with
      | .error f => fail h f.message s
      | .ok session => conduct h o session

end AssistedShell.CommandLine
