import AssistedShell.Machine.Tool.Writers
import AssistedShell.Script.Condition
import AssistedShell.Script.Words

/-! The commands that the interpreter performs itself. -/

namespace AssistedShell.Script

open Machine (Context Act Termination Disk)

def builtinNames : List String :=
  specialNames ++ ["[", "bg", "cd", "command", "echo", "false", "fg", "getopts", "hash", "jobs",
    "kill", "printf", "pwd", "read", "test", "true", "type", "umask", "unalias", "alias", "wait"]

def isBuiltin (name : String) : Bool := builtinNames.contains name

/-- The signals up to 31 by name, in order from number one. One number has no name. -/
def signalNames : List String :=
  ["HUP", "INT", "QUIT", "ILL", "TRAP", "ABRT", "BUS", "FPE", "KILL", "USR1", "SEGV", "USR2",
    "PIPE", "ALRM", "TERM", "16", "CHLD", "CONT", "STOP", "TSTP", "TTIN", "TTOU", "URG", "XCPU",
    "XFSZ", "VTALRM", "PROF", "WINCH", "IO", "PWR", "SYS"]

/-- The signal that a process gets when one that it started ends. -/
def childSignal : Nat := 17

/-- The name of a signal; number zero is the end of a script. -/
def signalName (n : Nat) : String :=
  if n = 0 then "EXIT" else signalNames.getD (n - 1) (toString n)

/-- The signal of a number or name. -/
def signalOf? (s : String) : Option Nat :=
  match Machine.Tool.natOf? s with
  | some n => if n < 65 then some n else none
  | none =>
    let name := s.map Char.toUpper
    if name = "EXIT" then some 0 else (signalNames.findIdx? (· = name)).map (· + 1)

/-- What is said of a command that a signal ended. -/
def obituary? : Nat → Option String
  | 1 => some "Hangup"
  | 3 => some "Quit"
  | 4 => some "Illegal instruction"
  | 6 => some "Aborted"
  | 7 => some "Bus error"
  | 8 => some "Floating point exception"
  | 9 => some "Killed"
  | 10 => some "User defined signal 1"
  | 11 => some "Segmentation fault"
  | 12 => some "User defined signal 2"
  | 14 => some "Alarm clock"
  | 15 => some "Terminated"
  | _ => none

namespace Builtin

/-- Splits the options off the arguments of a command. -/
def options (flags valued : String) : Nat → List String → Run Machine.Tool.Arguments
  | 0, args => return ⟨[], args⟩
  | _, [] => return {}
  | fuel + 1, arg :: rest => do
    match arg.toList with
    | ['-'] => return ⟨[], arg :: rest⟩
    | ['-', '-'] => return ⟨[], rest⟩
    | '-' :: cs =>
      match Machine.Tool.letters flags.toList valued.toList cs rest with
      | .ok (os, rest) =>
        let a ← options flags valued fuel rest
        return { a with options := os ++ a.options }
      | .error c =>
        if valued.contains c then Run.abort ("No arg for -" ++ c.toString ++ " option")
        else Run.abort ("Illegal option -" ++ c.toString)
    | _ => return ⟨[], arg :: rest⟩

def optionsOf (flags : String) (args : List String) (valued : String := "") :
    Run Machine.Tool.Arguments :=
  options flags valued args.length args

/-- A number that a command takes. -/
def numberOr (arg : Option String) (default : Nat) : Run Nat := do
  match arg with
  | none => return default
  | some a =>
    match Machine.Tool.natOf? a with
    | some n => return n
    | none => Run.abort ("Illegal number: " ++ a)

/-- Expects the name of a variable. -/
def checkName (name : String) : Run Unit := do
  unless isName name.toList do Run.abort (name ++ ": bad variable name")

/-- The name and the value of an assignment; the value of a lone name is none. -/
def assignment (arg : String) : String × Option String :=
  let name := String.ofList (arg.toList.takeWhile (· ≠ '='))
  (name, if arg.contains '=' then some (String.ofList (arg.toList.drop (name.length + 1)))
    else none)

def echo (args : List String) : Run Unit := do
  let (newline, args) :=
    match args with
    | "-n" :: r => (false, r)
    | args => (true, args)
  let (bytes, stop) := Machine.Format.unescape false true (" ".intercalate args).toList
  let bytes := if stop || !newline then bytes else bytes ++ [10]
  let c ← Run.context
  let e ← Run.machine (c.writeBytes 1 ⟨bytes.toArray⟩)
  if e.isSome then
    Run.complain "echo: I/O error"
    Run.setStatus 1

def printf (args : List String) : Run Unit := do
  match (← optionsOf "" args).operands with
  | [] => Run.abort "usage: printf format [arg ...]"
  | format :: args =>
    let r := Machine.Format.render Machine.Format.builtin format args
    let c ← Run.context
    let _ ← Run.machine (c.writeBytes 1 ⟨r.bytes.toArray⟩)
    for m in r.complaints do Run.complain m
    if r.broken then Run.setStatus 2
    else unless r.complaints.isEmpty do Run.setStatus 1

/-- A path with its dots carried out by name, from a directory. -/
def normalized (here path : String) : String :=
  let names := fun p : String => (Path.split p.toList).filter fun s => s ≠ [] && s ≠ ['.']
  let start := if path.startsWith "/" then [] else (names here).reverse
  let all := (names path).foldl (fun up s => if s = ['.', '.'] then up.tail else s :: up) start
  if all.isEmpty then "/" else String.join (all.reverse.map fun s => "/" ++ String.ofList s)

/-- The directory of a path, if it can be entered. -/
def enterable (path : String) : Run (Option Machine.NodeId) := do
  let c ← Run.context
  Run.machine fun s =>
    match s.disk.find c.directory true path with
    | .ok (id, n) => (if n.isDirectory && n.mayEnter then some id else none, s)
    | .error _ => (none, s)

def cd (args : List String) : Run Unit := do
  let a ← optionsOf "LP" args
  let i ← get
  let (target, shown) :=
    match a.operands with
    | [] => (i.value? "HOME", false)
    | "-" :: _ => (i.value? "OLDPWD", true)
    | d :: _ => (some d, false)
  let d := target.getD ""
  let d := if d = "" then "." else d
  let byName := (a.options.getLast?.map (·.1)) != some 'P'
  let path :=
    if !byName then d
    else if d.startsWith "/" then normalized "/" d
    else (i.here.map fun here => normalized here d).getD d
  match ← enterable path with
  | none => Run.abort ("can't cd to " ++ d)
  | some id =>
    let found ← Run.machine fun s => (s.disk.pathOf? id, s)
    let here := if byName && path.startsWith "/" then some path else found
    if here.isNone then Run.complain lostDirectory
    modify fun i =>
      let old := (i.value? "PWD").getD ""
      let i := ((i.assign "OLDPWD" old).markExported "OLDPWD").assign "PWD" (here.getD "")
      { i.markExported "PWD" with context := { i.context with directory := id }, here }
    if shown then Run.say (here.getD "" ++ "\n")

def pwd (args : List String) : Run Unit := do
  let a ← optionsOf "LP" args
  let i ← get
  let found ← Run.machine (Machine.Tool.directoryOf i.context)
  let physical := (a.options.getLast?.map (·.1)) == some 'P'
  if physical && found.isNone then Run.complain lostDirectory
  Run.say ((if physical then found else i.here).getD "" ++ "\n")

def test (closed : Bool) (args : List String) : Run Unit := do
  if closed && args.getLast? != some "]" then Run.abort "missing ]"
  let args := if closed then args.dropLast else args
  let c ← Run.context
  let v ← Run.machine fun s => (Condition.holds ⟨s.disk, c.directory⟩ args, s)
  match v with
  | .ok b => Run.setStatus (if b then 0 else 1)
  | .error m => Run.abort m

/-- One line of standard input, without its newline, and whether it had one. -/
def readLine : Run (String × Bool) := do
  let c ← Run.context
  match ← Run.machine (c.readPart 0 (·.takeLines 1)) with
  | .error _ => return ("", false)
  | .ok (bytes, ready) =>
    Run.waitUntil ready
    let text := Text.decodeLossy bytes
    if text.toList.getLast? == some '\n' then return (String.ofList text.toList.dropLast, true)
    return (text, false)

/-- Splits a line among variables: the last takes the rest. -/
def share (ifs : List Char) : List String → List Char → List (String × String)
  | [], _ => []
  | [x], cs =>
    let blank := fun c => ifs.contains c && (c == ' ' || c == '\t' || c == '\n')
    [(x, String.ofList ((cs.dropWhile blank).reverse.dropWhile blank).reverse)]
  | x :: xs, cs =>
    let blank := fun c => ifs.contains c && (c == ' ' || c == '\t' || c == '\n')
    let cs := cs.dropWhile blank
    let field := cs.takeWhile (!ifs.contains ·)
    let rest := (cs.drop field.length).dropWhile blank
    let rest :=
      match rest with
      | c :: r => if ifs.contains c then r else rest
      | [] => []
    (x, String.ofList field) :: share ifs xs rest

def unprotect : List Char → List Char
  | '\\' :: c :: r => c :: unprotect r
  | c :: r => c :: unprotect r
  | [] => []

def read (args : List String) : Run Unit := do
  let a ← optionsOf "r" args "p"
  if a.operands.isEmpty then Run.abort "arg count"
  let (line, whole) ← readLine
  let line := if a.has 'r' then line else String.ofList (unprotect line.toList)
  for (x, v) in share (← get).separators a.operands line.toList do
    checkName x
    Run.assign x v
  Run.setStatus (if whole then 0 else 1)

/-- A text in the quotes in which a value is listed. -/
def inQuotes (s : String) : String := "'" ++ s.replace "'" "'\"'\"'" ++ "'"

/-- A variable as a line of a list. -/
def listed (v : Variable) : String :=
  v.name ++ (v.value.map fun t => "=" ++ inQuotes t).getD "" ++ "\n"

/-- Marks variables, or lists those that are marked. -/
def markNames (name : String) (isMarked : Variable → Bool) (mark : Variable → Variable)
    (args : List String) : Run Unit := do
  let a ← optionsOf "p" args
  if a.operands.isEmpty || a.has 'p' then
    let vs := ((← get).bindings.filter isMarked).mergeSort fun a b => a.name ≤ b.name
    for v in vs do Run.say (name ++ " " ++ listed v)
  else
    for a in a.operands do
      let (x, v?) := assignment a
      checkName x
      match v? with
      | some v => Run.assign x v
      | none =>
        if ((← get).valueOf? x).isNone then
          modify fun i => { i with bindings := i.bindings ++ [{ name := x, value := none }] }
      modify (·.change x mark)

def unset (args : List String) : Run Unit := do
  let a ← optionsOf "vf" args
  for x in a.operands do
    if a.has 'f' then modify fun i => { i with functions := i.functions.filter (·.1 ≠ x) }
    else
      checkName x
      if (((← get).valueOf? x).map (·.constant)).getD false then
        Run.abort (x ++ ": is read only")
      modify (·.unset x)

def set (args : List String) : Run Unit := do
  if args.isEmpty then
    let vs := (← get).bindings.mergeSort fun a b => a.name ≤ b.name
    for v in vs do if v.value.isSome then Run.say (listed v)
  else
    match Choice.ofArguments false (← get).settings args with
    | .error m => Run.abort m
    | .ok c =>
      modify fun i => { i with settings := c.on }
      for again in c.listings do Run.say (Setting.listing again c.on)
      if c.closed || !c.operands.isEmpty then
        modify fun i => { i with parameters := c.operands }

/-- Makes variables the function's own. -/
def makeLocal (args : List String) : Run Unit := do
  if (← get).frames.isEmpty then Run.abort "not in a function"
  let put : (Interpreter → Frame → Frame) → Run Unit := fun f => modify fun i =>
    match i.frames with
    | frame :: r => { i with frames := f i frame :: r }
    | [] => i
  for a in args do
    if a = "-" then put fun i f => { f with settings := some i.settings }
    else
      let (x, v?) := assignment a
      checkName x
      put fun i f => { f with bindings := (x, i.valueOf? x) :: f.bindings }
      if let some v := v? then Run.assign x v

def shift (args : List String) : Run Unit := do
  let n ← numberOr args.head? 1
  let i ← get
  if n > i.parameters.length then Run.abort "can't shift that many"
  modify fun i => { i with parameters := i.parameters.drop n }

/-- Sends a signal to a process. -/
def signal (n : Nat) (target : String) : Run Unit := do
  match Machine.Tool.natOf? target with
  | none => Run.abort ("Illegal number: " ++ target)
  | some pid =>
    let c ← Run.context
    if pid = c.pid then modify fun i => { i with signals := i.signals ++ [n] }
    else
      let known ← Run.machine fun s =>
        match s.processes[pid]? with
        | some p =>
          if p.endsAt ≤ c.now then (false, s)
          else if h : n < 128 then
            if isHarmless n then (true, s)
            else (true, { s with processes := s.processes.insert pid ⟨.killed ⟨n, h⟩, c.now⟩ })
          else (true, s)
        | none => (false, s)
      unless known do
        Run.complain "No such process\n"
        Run.setStatus 1

def kill (args : List String) : Run Unit := do
  let usage : Run Unit := Run.abort
    ("Usage: kill [-s sigspec | -signum | -sigspec] [pid | job]... or\nkill -l [exitstatus]")
  let send : Nat → List String → Run Unit := fun n targets => do
    if targets.isEmpty then usage
    for t in targets do signal n t
  match args with
  | [] => usage
  | "-l" :: rest =>
    if let some t := rest.head? then
      let n ← numberOr (some t) 0
      Run.say (signalName (if n > 128 then n - 128 else n) ++ "\n")
    else Run.say ("0\n" ++ String.join (signalNames.map (· ++ "\n")))
  | "-s" :: name :: targets =>
    match signalOf? name with
    | some n => send n targets
    | none => Run.abort ("invalid signal number or name: " ++ name)
  | a :: targets =>
    match a.toList with
    | ['-', '-'] => send 15 targets
    | '-' :: c :: cs =>
      match signalOf? (String.ofList (c :: cs)) with
      | some n => send n targets
      | none => Run.abort ("Illegal option -" ++ c.toString)
    | _ => send 15 args

/-- Sets what to do on signals, or lists it. -/
def trap (args : List String) : Run Unit := do
  match (← optionsOf "" args).operands with
  | [] =>
    for (n, action) in (← get).traps.mergeSort fun a b => a.1 ≤ b.1 do
      Run.say ("trap -- " ++ inQuotes action ++ " " ++ signalName n ++ "\n")
  | first :: rest =>
    let resets := rest.isEmpty || first = "-" || (Machine.Tool.natOf? first).isSome
    let names := if rest.isEmpty || (Machine.Tool.natOf? first).isSome then first :: rest else rest
    for name in names do
      match signalOf? name with
      | some n =>
        modify fun i =>
          let others := i.traps.filter (·.1 ≠ n)
          { i with traps := if resets then others else (n, first) :: others }
      | none =>
        let c ← Run.context
        Run.machine (c.complain ("trap: " ++ name ++ ": bad trap\n"))
        Run.setStatus 1
        return

def wait (args : List String) : Run Unit := do
  let i ← get
  let args := (← optionsOf "" args).operands
  let mut pids := i.children
  unless args.isEmpty do
    pids := []
    for a in args do
      if a.startsWith "%" then Run.abort ("No such job: " ++ a)
      pids := pids ++ [← numberOr (some a) 0]
  for pid in pids do
    match ← Run.machine fun s => (s.processes[pid]?, s) with
    | none => Run.setStatus 127
    | some p =>
      Run.waitUntil p.endsAt
      unless args.isEmpty do Run.setStatus p.ending.status
      if let .killed n := p.ending then
        if let some m := obituary? n.val then
          Run.machine ((← Run.context).complain (m ++ "\n"))

/-! ### Options of scripts -/

/-- One step through the options of a script: the letter found, if one is left, with the value
that goes with it, the number of the next argument, and how far the one before it has been
read. -/
structure Step where
  letter : Option String
  value : Option String
  next : Nat
  offset : Nat := 0
  complaint : Option String := none

/-- Looks for the next option among arguments. -/
def nextOption (known : List Char) (args : List String) (next offset : Nat) : Step :=
  let current := if offset = 0 || next ≤ 1 then [] else (args.getD (next - 2) "").toList.drop offset
  let found : Option (List Char × Nat × Nat) :=
    if !current.isEmpty then some (current, next, offset)
    else
      match (args.getD (next - 1) "").toList with
      | '-' :: c :: r => some (c :: r, next + 1, 1)
      | _ => none
  match found with
  | none => ⟨none, none, next, 0, none⟩
  | some ([], next, _) => ⟨none, none, next, 0, none⟩
  | some (c :: r, next, at') =>
    if c = '-' && r.isEmpty && at' = 1 then ⟨none, none, next, 0, none⟩
    else
      let quiet := known.head? == some ':'
      let offset := if r.isEmpty then 0 else at' + 1
      let fault := fun (sign text : String) =>
        if quiet then ⟨some sign, some c.toString, next, offset, none⟩
        else (⟨some "?", none, next, offset, some text⟩ : Step)
      match (known.dropWhile (· ≠ c)).tail?, c with
      | none, _ | _, ':' => fault "?" ("Illegal option -" ++ c.toString ++ "\n")
      | some (':' :: _), _ =>
        if !r.isEmpty then ⟨some c.toString, some (String.ofList r), next, 0, none⟩
        else
          match args[next - 1]? with
          | some v => ⟨some c.toString, some v, next + 1, 0, none⟩
          | none => fault ":" ("No arg for -" ++ c.toString ++ " option\n")
      | some _, _ => ⟨some c.toString, some "", next, offset, none⟩

def getopts (args : List String) : Run Unit := do
  match args with
  | known :: name :: given =>
    let i ← get
    let given := if given.isEmpty then i.parameters else given
    let next := ((i.value? "OPTIND").bind Machine.Tool.natOf?).getD 1
    let next := if next > given.length + 1 then 1 else max next 1
    let step := nextOption known.toList given next i.optionOffset
    if let some m := step.complaint then Run.machine (i.context.complain m)
    if step.letter.isSome then
      match step.value with
      | some v => Run.assign "OPTARG" v
      | none => modify (·.unset "OPTARG")
    Run.assign "OPTIND" (toString step.next)
    checkName name
    Run.assign name (step.letter.getD "?")
    modify fun i => { i with optionOffset := step.offset }
    Run.setStatus (if step.letter.isSome then 0 else 1)
  | _ => Run.abort "Usage: getopts optstring var [arg...]"

/-! ### Finding commands -/

/-- The file that a command's name leads to, by the search path. -/
def findProgram (name : String) : Run (Option String × Bool) := do
  let i ← get
  let search := (i.value? "PATH").getD ""
  let dirs := (Text.splitAll (· == ':') search.toList).map String.ofList
  Run.machine fun s =>
    let candidates := dirs.map fun d => if d = "" then name else joinPath d name
    let found := candidates.find? fun p => s.disk.runnable i.context.directory p
    let denied := candidates.any fun p => s.disk.present i.context.directory p
    ((found, denied), s)

/-- Says what names stand for. -/
def describe (verbose : Bool) (names : List String) : Run Unit := do
  for name in names do
    let i ← get
    let kind := fun (k : String) => some (if verbose then name ++ " is a shell " ++ k else name)
    let line ←
      if reserved.contains name then pure (kind "keyword")
      else if i.functions.any (·.1 = name) then pure (kind "function")
      else if specialNames.contains name then
        pure (some (if verbose then name ++ " is a special shell builtin" else name))
      else if isBuiltin name then pure (kind "builtin")
      else if name.contains '/' then do
        let ok ← Run.machine fun s => (s.disk.runnable i.context.directory name, s)
        pure (if ok then some (if verbose then name ++ " is " ++ name else name) else none)
      else do
        let (p, _) ← findProgram name
        pure (p.map fun p => if verbose then name ++ " is " ++ p else p)
    match line with
    | some l => Run.say (l ++ "\n")
    | none =>
      if verbose then Run.say (name ++ ": not found\n")
      Run.setStatus 127

end Builtin

end AssistedShell.Script
