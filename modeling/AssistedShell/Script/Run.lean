import AssistedShell.Script.Builtin

/-! Running scripts: commands one after another, each with its redirections, in
this process or in one of its own. -/

namespace AssistedShell.Script

open Machine (Context Act Termination Disk Loader)

/-- The reason why a file cannot be opened, as the interpreter words it. -/
def openFault (creating : Bool) (path : String) (e : Errno) : String :=
  let reason :=
    match e with
    | .noEntry | .notDirectory => if creating then "Directory nonexistent" else "No such file"
    | e => e.text
  (if creating then "cannot create " else "cannot open ") ++ path ++ ": " ++ reason

/-- Carries out one redirection; false if it fails. -/
def redirect (self : Recursion) : Redirection → Run Bool
  | .mk fd kind word => do
    let openAs := fun (path : String) (a : Machine.Disk.Access) (append : Bool) => do
      let c ← Run.context
      let r ← Run.machine fun s =>
        match s.disk.openFile c.directory path a with
        | .error e => (Except.error e, s)
        | .ok (id, d) =>
          let (f, s) := { s with disk := d }.openAs ⟨.node id, 0, append, a.read, a.write⟩
          (.ok f, s)
      match r with
      | .ok f =>
        Run.modifyContext (·.setFile fd f)
        return true
      | .error e =>
        Run.complain (openFault a.create path e)
        return false
    match kind with
    | .input => openAs (← expandText self word) { read := true } false
    | .output =>
      openAs (← expandText self word) { write := true, create := true, truncate := true } false
    | .append => openAs (← expandText self word) { write := true, create := true } true
    | .both => openAs (← expandText self word) { read := true, write := true, create := true } false
    | .duplicate =>
      let t ← expandText self word
      if t = "-" then
        Run.modifyContext (·.closeFile fd)
        return true
      let c ← Run.context
      match (Machine.Tool.natOf? t).bind c.file? with
      | some f =>
        Run.modifyContext (·.setFile fd f)
        return true
      | none =>
        Run.complain (if (Machine.Tool.natOf? t).isSome then t ++ ": Bad file descriptor"
          else "Syntax error: Bad fd number")
        return false
    | .hereDoc body =>
      let w := ((← get).bodies[body]?).getD []
      let text := textOf (← expandAtoms self w)
      let r ← Run.machine fun s =>
        let ((r, w), s) := s.pipe
        match s.write w 0 (.ofBytes text.toUTF8) with
        | .ok s => (r, s)
        | .error _ => (r, s)
      Run.modifyContext (·.setFile fd r)
      return true

def redirectAll (self : Recursion) : List Redirection → Run Bool
  | [] => return true
  | r :: rs => do
    if ← redirect self r then redirectAll self rs else return false

/-- Runs something with other open files, and puts the old ones back. -/
def withRedirections (self : Recursion) (rs : List Redirection) (failed body : Run Unit) :
    Run Unit := do
  let before := (← Run.context).descriptors
  let putBack := Run.modifyContext fun c => { c with descriptors := before }
  Run.ensuring (do
    if ← redirectAll self rs then body else failed) putBack

/-- Runs a program found under a path. -/
def runProgram (self : Recursion) (path : String) (words : List String) : Run Unit := do
  let i ← get
  let pid ← Run.machine fun s => (s.nextPid, { s with nextPid := s.nextPid + 1 })
  let c := { i.context with environment := i.environment, pid, parent := i.context.pid }
  match ← Run.machine (self.launch c path words) with
  | .ok o =>
    Run.waitUntil o.now
    Run.setStatus o.ending.status
    match o.ending with
    | .killed signal =>
      match obituary? signal.val with
      | some m => Run.machine ((← Run.context).complain (m ++ "\n"))
      | none => pure ()
    | _ => pure ()
  | .error e =>
    let name := words.headD path
    let missing := e == .noEntry || e == .notDirectory
    Run.complain (name ++ ": " ++ (if missing then "not found" else e.text))
    Run.setStatus (if missing then 127 else 126)

/-- Runs a command that is no function and no built-in one. -/
def runExternal (self : Recursion) (words : List String) : Run Unit := do
  let name := words.headD ""
  if name.contains '/' then runProgram self name words
  else
    match ← Builtin.findProgram name with
    | (some path, _) => runProgram self path words
    | (none, denied) =>
      Run.complain (name ++ ": " ++ (if denied then "Permission denied" else "not found"))
      Run.setStatus 127

/-- Runs a file in this process. -/
def runFile (self : Recursion) (args : List String) : Run Unit := do
  match args with
  | [] => return
  | name :: _ =>
    let path ←
      if name.contains '/' then pure (some name)
      else do
        let i ← get
        let dirs := (Text.splitAll (· == ':') ((i.value? "PATH").getD "").toList).map String.ofList
        let candidates := dirs.map fun d => joinPath d name
        Run.machine fun s =>
          (candidates.find? fun p => s.disk.present i.context.directory p, s)
    let c ← Run.context
    let r ← Run.machine fun s =>
      match path with
      | none => (none, s)
      | some p =>
        match s.disk.find c.directory true p with
        | .ok (id, n) => (if n.mayRead then s.disk.bytes? id else none, s)
        | .error _ => (none, s)
    match path, r with
    | some p, some bytes =>
      modify fun i => { i with builtin := some p }
      runText self (Text.decodeLossy bytes)
    | some p, none => Run.abort ("cannot open " ++ p ++ ": No such file")
    | none, _ => Run.abort (name ++ ": not found")

/-- Breaks off as many loops as the arguments say, if there are any. -/
def breakOff (jump : Nat → Jump) (args : List String) : Run Unit := do
  let n ← Builtin.numberOr args.head? 1
  if n = 0 then Run.abort ("Illegal number: " ++ args.headD "")
  let loops := (← get).loops
  unless loops = 0 do throw (jump (min n loops))

/-- Performs a built-in command. -/
def perform (self : Recursion) (name : String) (args : List String) : Run Unit := do
  let before := (← get).status
  Run.setStatus 0
  match name with
  | ":" | "true" | "alias" | "unalias" | "jobs" => return
  | "fg" | "bg" => Run.abort "No current job"
  | "times" =>
    let line := "0m0.000000s 0m0.000000s\n"
    Run.say (line ++ line)
  | "false" => Run.setStatus 1
  | "echo" => Builtin.echo args
  | "printf" => Builtin.printf args
  | "cd" => Builtin.cd args
  | "pwd" => Builtin.pwd args
  | "test" => Builtin.test false args
  | "[" => Builtin.test true args
  | "read" => Builtin.read args
  | "getopts" => Builtin.getopts args
  | "export" => Builtin.markNames name (·.exported) (fun v => { v with exported := true }) args
  | "readonly" => Builtin.markNames name (·.constant) (fun v => { v with constant := true }) args
  | "unset" => Builtin.unset args
  | "set" => Builtin.set args
  | "shift" => Builtin.shift args
  | "kill" => Builtin.kill args
  | "wait" => Builtin.wait args
  | "local" => Builtin.makeLocal args
  | "trap" => Builtin.trap args
  | "type" => Builtin.describe true args
  | "hash" =>
    for a in (← Builtin.optionsOf "rv" args).operands do
      if (← Builtin.findProgram a).1.isNone && !isBuiltin a then
        Run.complain (a ++ ": not found")
        Run.setStatus 1
  | "umask" => if args.isEmpty then Run.say "0022\n"
  | "exit" =>
    let n ← Builtin.numberOr args.head? before
    Run.setStatus (n % 256)
    throw .exit
  | "return" =>
    let n ← Builtin.numberOr args.head? before
    Run.setStatus (n % 256)
    throw .done
  | "break" => breakOff .leave args
  | "continue" => breakOff .again args
  | "eval" => runText self (" ".intercalate args)
  | "." => runFile self args
  | "exec" =>
    unless args.isEmpty do
      runExternal self args
      throw .exit
  | "command" =>
    let a ← Builtin.optionsOf "pvV" args
    if a.has 'v' || a.has 'V' then Builtin.describe (a.has 'V') a.operands
  | _ => return

/-- Runs a built-in command. Only if it is a special one, its failure is more than its own. -/
def runBuiltin (self : Recursion) (special : Bool) (name : String) (args : List String) :
    Run Unit := do
  let outer := (← get).builtin
  modify fun i => { i with builtin := some name }
  try Run.ensuring (perform self name args) (modify fun i => { i with builtin := outer })
  catch j => unless j = .failed && !special do throw j

/-- Calls a function. -/
def callFunction (self : Recursion) (body : Command) (args : List String) : Run Unit := do
  let i ← get
  let frame : Frame := { parameters := i.parameters, loops := i.loops }
  set { i with parameters := args, loops := 0, frames := frame :: i.frames }
  try
    Run.ensuring (self.run body) (modify fun i => i.leave (i.frames.headD frame))
  catch j => unless j = .done do throw j

/-- Assigns variables one after another, and says what they became. -/
def assignAll (self : Recursion) : List (String × Word) → Run (List (String × String))
  | [] => return []
  | (x, w) :: r => do
    let v ← expandText self w
    Run.assign x v
    return (x, v) :: (← assignAll self r)

/-- Writes a command before it runs, where that is asked for. -/
def trace (made : List (String × String)) (words : List String) : Run Unit := do
  let i ← get
  if i.has .xtrace then
    let parts := made.map (fun (x, v) => x ++ "=" ++ v) ++ words
    Run.machine (i.context.complain ((i.value? "PS4").getD "+ " ++ " ".intercalate parts ++ "\n"))

/-- Makes assignments for the time that something runs; the programs it runs see them too. -/
def withAssignments (self : Recursion) (assignments : List (String × Word)) (words : List String)
    (body : Run Unit) : Run Unit := do
  let before ← get
  let made ← assignAll self assignments
  modify fun i => made.foldl (fun i (x, _) => i.markExported x) i
  trace made words
  Run.ensuring body <| modify fun i =>
    made.foldl (fun i (x, _) => i.restore x (before.valueOf? x)) i

/-- The words of a command without those that only say that it is no function. -/
def direct : List String → Bool × List String
  | "command" :: "-p" :: w :: r => if w.startsWith "-" then (false, "command" :: "-p" :: w :: r)
    else (true, (direct (w :: r)).2)
  | "command" :: w :: r => if w.startsWith "-" then (false, "command" :: w :: r)
    else (true, (direct (w :: r)).2)
  | words => (false, words)

/-- Runs a simple command. -/
def runSimple (self : Recursion) (assignments : List (String × Word)) (words : List Word)
    (redirections : List Redirection) (line : Nat) : Run Unit := do
  modify fun i => { i with line }
  let before := (← get).status
  let all ← expandAll self words
  let (isDirect, words) := direct all
  match words with
  | [] =>
    let after := (← get).status
    Run.setStatus (if after = before then 0 else after)
    withRedirections self redirections (Run.setStatus 2) do
      trace (← assignAll self assignments) []
  | name :: args =>
    Run.setStatus before
    let i ← get
    match if isDirect then none else i.functions.lookup name with
    | some body =>
      withRedirections self redirections (Run.setStatus 2) do
        withAssignments self assignments all (callFunction self body args)
    | none =>
      if !isBuiltin name then
        withRedirections self redirections (Run.setStatus 2) do
          withAssignments self assignments all (runExternal self words)
      else if name = "exec" && args.isEmpty then
        -- the redirections stay
        unless ← redirectAll self redirections do
          Run.setStatus 2
          throw .exit
        Run.setStatus 0
      else if specialNames.contains name && !isDirect then
        withRedirections self redirections
          (do
            Run.setStatus 2
            throw .failed)
          (do
            let made ← assignAll self assignments
            if name = "exec" then
              modify fun i => made.foldl (fun i (x, _) => i.markExported x) i
            trace made all
            runBuiltin self true name args)
      else
        withRedirections self redirections (Run.setStatus 2) do
          withAssignments self assignments all (runBuiltin self false name args)

/-- Runs the stages of a pipeline, each in a process of its own. -/
def runStages (self : Recursion) (started : Nat) (input : Option Nat) : List Command → Run Unit
  | [] => return
  | [last] => do
    let _ ← apart self do
      if let some r := input then Run.modifyContext (·.setFile 0 r)
      self.run last
  | stage :: rest => do
    let (r, w) ← Run.machine fun s => s.pipe
    let latest := (← Run.context).now
    Run.modifyContext fun c => { c with now := started }
    let _ ← apart self do
      if let some r := input then Run.modifyContext (·.setFile 0 r)
      Run.modifyContext (·.setFile 1 w)
      self.run stage
    let ended := (← Run.context).now
    Run.machine fun s =>
      match s.files[w]? with
      | some ⟨.pipe id, _, _, _, _⟩ =>
        let p := (s.pipes[id]?).getD {}
        ((), { s with pipes := s.pipes.insert id { p with ready := max p.ready ended } })
      | _ => ((), s)
    Run.modifyContext fun c => { c with now := started }
    runStages self started (some r) rest
    Run.waitUntil (max latest ended)

/-- A part of a loop, and whether the loop goes on. -/
def runPart (part : Run Unit) : Run Bool := do
  modify fun i => { i with loops := i.loops + 1 }
  try
    Run.ensuring part (modify fun i => { i with loops := i.loops - 1 })
    return true
  catch j =>
    match j with
    | .leave n => if n > 1 then throw (.leave (n - 1)) else return false
    | .again n => if n > 1 then throw (.again (n - 1)) else return true
    | j => throw j

/-- The body of a loop for each word. -/
def runEach (self : Recursion) (name : String) (body : Command) : List String → Run Unit
  | [] => return
  | w :: ws => do
    Run.assign name w
    if ← runPart (self.run body) then runEach self name body ws

/-- Ends the script where a failure is to end it. -/
def enforce : Run Unit := do
  let i ← get
  if i.has .errexit && !i.lenient && i.status ≠ 0 then throw .exit

/-- Runs something whose failure ends nothing. -/
def leniently (body : Run Unit) : Run Unit := do
  let before := (← get).lenient
  modify fun i => { i with lenient := true }
  Run.ensuring body (modify fun i => { i with lenient := before })

/-- The body of a loop as long as its test says so, at most `fuel` times. The status is that of
the last pass. -/
def runLoop (self : Recursion) (untilTrue : Bool) (test body : Command) : Nat → Nat → Run Unit
  | 0, _ => throw .exit
  | fuel + 1, status => do
    let tested ← runPart (leniently (self.run test))
    if !tested || ((← get).status = 0) == untilTrue then Run.setStatus status
    else if ← runPart (self.run body) then
      runLoop self untilTrue test body fuel (← get).status

/-- The passes allowed to a loop. -/
def passes : Nat := 1000000

/-- The first clause with a pattern that matches. -/
def runClauses (self : Recursion) (text : String) : List (List Word × Command) → Run Unit
  | [] => return
  | (patterns, body) :: rest => do
    let mut found := false
    for p in patterns do
      unless found do
        found := (patternOf (← expandAtoms self p)).matchAll text.toList
    if found then self.run body else runClauses self text rest

/-- Starts a command beside the script. -/
def runBeside (self : Recursion) (body : Command) : Run Unit := do
  let before ← get
  let pid ← Run.machine fun s => (s.nextPid, { s with nextPid := s.nextPid + 1 })
  let quiet ← Run.machine fun s =>
    match s.disk.find Disk.root true "/dev/null" with
    | .ok (id, _) => s.openAs ⟨.node id, 0, false, true, false⟩
    | .error _ => s.openAs ⟨.collector 0, 0, false, true, false⟩
  let signal? ← apart self do
    Run.modifyContext fun c => { c.setFile 0 quiet with pid }
    self.run body
  let after ← get
  let ending : Ending :=
    match signal? with
    | some signal => .killed signal
    | none => .exited (UInt8.ofNat after.status)
  Run.machine fun s =>
    ((), { s with processes := s.processes.insert pid ⟨ending, after.context.now⟩ })
  set { before with
    bodies := after.bodies
    background := some pid
    children := before.children ++ [pid]
    status := 0 }

/-- One step of the interpreter: a command, by means of its parts. -/
def step (self : Recursion) : Command → Run Unit
  | .nothing => Run.setStatus 0
  | .simple assignments words redirections line => do
    runSimple self assignments words redirections line
    enforce
  | .pipeline negated stages => do
    let go : Run Unit :=
      match stages with
      | [c] => self.run c
      | stages => do runStages self (← Run.context).now none stages
    if negated then
      leniently go
      modify fun i => { i with status := if i.status = 0 then 1 else 0 }
    else
      go
      enforce
  | .both a b => do
    leniently (self.run a)
    if (← get).status = 0 then self.run b
  | .either a b => do
    leniently (self.run a)
    if (← get).status ≠ 0 then self.run b
  | .sequence a b => do
    self.run a
    self.run b
  | .background body => runBeside self body
  | .subshell body => do
    let _ ← apart self (self.run body)
    enforce
  | .group body => self.run body
  | .redirected body redirections line => do
    modify fun i => { i with line }
    withRedirections self redirections (Run.setStatus 2) (self.run body)
  | .conditional test yes no => do
    leniently (self.run test)
    if (← get).status = 0 then self.run yes else self.run no
  | .loop untilTrue test body => runLoop self untilTrue test body passes 0
  | .each name words body => do
    let ws ←
      match words with
      | some ws => expandAll self ws
      | none => pure (← get).parameters
    Run.setStatus 0
    runEach self name body ws
  | .select word clauses => do
    let t ← expandText self word
    Run.setStatus 0
    runClauses self t clauses
  | .define name body => do
    modify fun i => { i with functions := (name, body) :: i.functions.filter (·.1 ≠ name) }
    Run.setStatus 0

/-- Runs a command, in at most `fuel` nested steps, and answers the signals that came. -/
def run (launch : Loader) : Nat → Command → Run Unit
  | 0, _ => throw .exit
  | fuel + 1, c => do
    unless (← get).has .noexec do
      step ⟨run launch fuel, launch⟩ c
      answerSignals ⟨run launch fuel, launch⟩

/-- The nesting allowed to a script. -/
def nesting : Nat := 3000

def recursion (launch : Loader) : Recursion := ⟨run launch nesting, launch⟩

/-- Runs a script to its end. -/
def finish (launch : Loader) (i : Interpreter) (text : String) : Act Termination := do
  let self := recursion launch
  let (r, i) ← (conclude self (runText self text)).run i
  match r with
  | .ok (some signal) => return ⟨.killed signal, i.context.now⟩
  | _ => return ⟨.exited (UInt8.ofNat i.status), i.context.now⟩

/-- The interpreter as a program: a command after `-c`, a file, or standard input. -/
def main (launch : Loader) (c : Context) (args : List String) : Act Termination := do
  -- the interpreter collects what it starts, whatever it was told to ignore
  let c := { c with ignored := c.ignored.filter (· ≠ childSignal) }
  let title := c.words.headD "sh"
  let directory ← Machine.Tool.directoryAsNamed c
  if directory.isNone then c.complain (title ++ ": 0: " ++ lostDirectory ++ "\n")
  let refuse : String → Act Termination := fun m => do
    c.complain (title ++ ": 0: " ++ m ++ "\n")
    return c.exit 2
  match Choice.ofArguments true [] args with
  | .error m => refuse m
  | .ok choice =>
    let start : Context → String → List String → Interpreter := fun c title parameters =>
      { Interpreter.start c title parameters directory with settings := choice.on }
    match choice.operands with
    | command :: rest =>
      if choice.command then
        return ← finish launch (start c (rest.headD title) (rest.drop 1)) command
      else if !choice.on.contains .stdin then
        match ← Machine.Tool.contentOf c command with
        | .error e => return ← refuse (openFault false command e)
        | .ok (data, _) =>
          return ← finish launch (start c command rest) (Text.decodeLossy data.bytes)
    | [] => if choice.command then return ← refuse "-c requires an argument"
    match ← c.readAll 0 with
    | .error _ => return c.exit 0
    | .ok (data, ready) =>
      let i := start (c.later ready) title choice.operands
      finish launch (i.turnedOn .stdin) (Text.decodeLossy data.bytes)

end AssistedShell.Script
