import AssistedShell.Machine.Tool.Files
import AssistedShell.Machine.Tool.Count
import AssistedShell.Machine.Tool.Copy
import AssistedShell.Machine.Tool.Replace
import AssistedShell.Machine.Tool.Sort
import AssistedShell.Script.Run

/-! Running a program: a tool of the system, or a file that names the program to
read it. -/

namespace AssistedShell.Machine

namespace Tool

/-- Lists an environment, each entry with an ending. -/
def listEnvironment (c : Context) (ending : String) : Act Termination := do
  c.say (String.join (c.environment.bindings.map fun b => b.entry ++ ending))
  return c.exit 0

/-- Makes the assignments in front of the command of `env`. -/
def assigned (env : Environment) : List String → Environment × List String
  | a :: r =>
    match Text.splitAt? '=' a.toList with
    | some (x, v) => assigned (env.set (String.ofList x) (String.ofList v)) r
    | none => (env, a :: r)
  | [] => (env, [])

/-- The environment in which `env` runs its command. -/
def envStart (a : Arguments) (env : Environment) : Environment :=
  let env := if a.has 'i' || a.operands.head? = some "-" then {} else env
  a.options.foldl (fun env (k, v) => if k == 'u' then env.unset v else env) env

/-- The signals that a list of their names and numbers means; without one, all that there are. -/
def signalsOf? (names : String) : Except String (List Nat) :=
  if names.isEmpty then .ok ((List.range 64).map (· + 1))
  else
    (Text.splitAll (· == ',') names.toList).mapM fun name =>
      match Script.signalOf? (String.ofList name) with
      | some (n + 1) => .ok (n + 1)
      | _ => .error (quote (String.ofList name) ++ ": invalid signal")

/-- The signals that `env` tells its command to ignore. -/
def silenced (a : Arguments) : Except String (List Nat) :=
  (a.options.filter (·.1 == 'I')).foldlM (fun ns o => (signalsOf? o.2).map (ns ++ ·)) []

/-- The places in which a program is looked for. -/
def searched (env : Environment) (name : String) : List String :=
  if name.contains '/' then [name]
  else
    let path := (env.get? "PATH").getD "/bin:/usr/bin"
    (Text.splitAll (· == ':') path.toList).map fun d =>
      if d = [] then name else joinPath (String.ofList d) name

def env (launch : Loader) (c : Context) (args : List String) : Act Termination := do
  let known : Known := {
    flags := "i0"
    valued := "uC"
    mayBeValued := "I"
    names := [("ignore-environment", 'i'), ("null", '0'), ("unset", 'u'), ("chdir", 'C'),
      ("ignore-signal", 'I')]
    placement := .inFront }
  match known.read args with
  | .error m => usage c m 125
  | .ok a =>
    let ignored ← match silenced a with
      | .ok ns => pure (c.ignored ++ ns)
      | .error m => return ← usage c m 125
    let operands := if a.operands.head? = some "-" then a.operands.tail else a.operands
    let (environment, command) := assigned (envStart a c.environment) operands
    let s ← get
    let directory := match a.value? 'C' with
      | none => Except.ok c.directory
      | some d => (s.disk.find c.directory true d).bind fun (id, n) =>
        if n.isDirectory then .ok id else .error .notDirectory
    match command, directory with
    | [], _ =>
      if a.has 'C' then usage c "must specify command with --chdir (-C)" 125
      else listEnvironment { c with environment } (if a.has '0' then "\x00" else "\n")
    | _, .error e =>
      report c ("cannot change directory to " ++ quote ((a.value? 'C').getD "") ++ ": " ++ e.text)
      return c.exit 125
    | name :: _, .ok directory =>
      if a.has '0' then return ← usage c "cannot specify --null (-0) with command" 125
      let c := { c with directory, ignored }
      let path := (searched environment name).find? fun p => s.disk.present c.directory p
      let r ← launch { c with environment } (path.getD name) command
      match r with
      | .ok o => return o
      | .error e =>
        report c (quote name ++ ": " ++ e.text)
        return c.exit (if e == .noEntry then 127 else 126)

/-- Says with its status whether a condition holds. -/
def test (closed : Bool) (c : Context) (args : List String) : Act Termination := do
  let s ← get
  let verdict :=
    if !closed then Script.Condition.holds ⟨s.disk, c.directory⟩ args
    else if args.getLast? = some "]" then
      Script.Condition.holds ⟨s.disk, c.directory⟩ args.dropLast
    else .error ("missing " ++ quote "]")
  match verdict with
  | .ok holds => return c.exit (if holds then 0 else 1)
  | .error m =>
    report c m
    return c.exit 2

/-- Runs a tool by name; `launch` runs the programs that it starts, and `shell` is the shell that
the machine serves. -/
def run (shell : Program) (launch : Loader) (name : String) (c : Context) (args : List String) :
    Act Termination :=
  match name with
  | "true" => return c.exit 0
  | "false" => return c.exit 1
  | "echo" => echo c args
  | "printf" => printf c args
  | "seq" => seq c args
  | "yes" => yes c args
  | "pwd" => pwd c args
  | "sleep" => sleep c args
  | "cat" => cat c args
  | "head" => head c args
  | "tail" => tail c args
  | "wc" => wc c args
  | "sort" => sort c args
  | "tr" => tr c args
  | "mkdir" => mkdir c args
  | "rmdir" => rmdir c args
  | "rm" => rm c args
  | "touch" => touch c args
  | "ln" => ln c args
  | "ls" => ls c args
  | "env" => env launch c args
  | "test" => test false c args
  | "[" => test true c args
  | "sh" => Script.main launch c args
  | "ghsh" => shell c args
  | _ => return c.exit 0

end Tool

/-- The program and the argument that the first line of a script names. -/
def interpreterOf? (bytes : ByteArray) : Option (String × Option String) :=
  match bytes.toList with
  | 35 :: 33 :: r =>
    let line := (r.takeWhile (· ≠ 10)).map fun b => Char.ofNat b.toNat
    let line := Text.trim line
    let isGap := fun c => c == ' ' || c == '\t'
    let program := line.takeWhile (!isGap ·)
    let argument := (line.drop program.length).dropWhile isGap
    if program.isEmpty then none
    else if argument.isEmpty then some (String.ofList program, none)
    else some (String.ofList program, some (String.ofList argument))
  | _ => none

/-- How often one program may stand in for another, and start another. -/
def launchDepth : Nat := 40

/-- Runs the program at a path. -/
def exec (shell : Program) : Nat → Loader
  | 0, _, _, _ => return .error .linkLoop
  | fuel + 1, c, path, words => do
    let s ← get
    match s.disk.find c.directory true path with
    | .error e => return .error e
    | .ok (_, n) =>
      if !n.isRegular || !n.mayEnter then return .error .denied
      match n.content with
      | .tool name =>
        return .ok (← Tool.run shell (exec shell fuel) name { c with words } (words.drop 1))
      | .file bytes =>
        match interpreterOf? bytes with
        | none => return .error .notAProgram
        | some (program, argument) =>
          exec shell fuel c program (program :: argument.toList ++ path :: words.drop 1)
      | _ => return .error .denied

/-! ### A fresh machine -/

def toolNames : List String :=
  ["sh", "dash", "echo", "cat", "printf", "sort", "wc", "tr", "head", "tail", "seq", "yes", "ls",
    "ln", "mkdir", "rmdir", "rm", "touch", "pwd", "env", "sleep", "true", "false", "test", "["]

/-- The number of the shell's own process. -/
def shellPid : Pid := 999

/-- Makes a directory below another. -/
def addFolder (d : Disk) (parent : NodeId) (name : String) : NodeId × Disk :=
  let (id, d) := d.add ⟨0o755, .directory [] parent⟩
  (id, d.link parent name id)

def addNode (d : Disk) (parent : NodeId) (name : String) (n : Node) : Disk :=
  let (id, d) := d.add n
  d.link parent name id

/-- A disk with the tools of the system, devices, what the shell's process runs and where it is,
and a place for scratch files. -/
def systemDisk : Disk :=
  let d := Disk.empty
  let (usr, d) := addFolder d Disk.root "usr"
  let (bin, d) := addFolder d usr "bin"
  let d := toolNames.foldl (fun d t =>
    addNode d bin t ⟨0o755, .tool (if t = "dash" then "sh" else t)⟩) d
  let d := addNode d Disk.root "bin" ⟨0o777, .link "usr/bin"⟩
  let (dev, d) := addFolder d Disk.root "dev"
  let d := addNode d dev "null" ⟨0o666, .device .null⟩
  let d := addNode d dev "zero" ⟨0o666, .device .zero⟩
  let (proc, d) := addFolder d Disk.root "proc"
  let (own, d) := addFolder d proc (toString shellPid)
  let d := addNode d own "exe" ⟨0o755, .tool "ghsh"⟩
  let d := addNode d own "cwd" ⟨0o777, .anchor Disk.root⟩
  let (_, d) := addFolder d Disk.root "etc"
  let (_, d) := addFolder d Disk.root "home"
  let (_, d) := addFolder d Disk.root "root"
  let (_, d) := addFolder d Disk.root "var"
  (addFolder d Disk.root "tmp").2

/-- The anchor that leads to the working directory of a process. -/
def anchorOf? (d : Disk) (pid : Pid) : Option NodeId := do
  let proc ← d.entry? Disk.root "proc"
  let own ← d.entry? proc (toString pid)
  d.entry? own "cwd"

/-- Keeps account of where a process is. -/
def anchored (d : Disk) (pid : Pid) (dir : NodeId) : Disk :=
  match anchorOf? d pid with
  | some id => d.setAnchor id dir
  | none => d

end AssistedShell.Machine
