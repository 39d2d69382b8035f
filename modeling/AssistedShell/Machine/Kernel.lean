import AssistedShell.Assistant.Basic
import AssistedShell.CommandLine
import AssistedShell.Host
import AssistedShell.Http.Exchange
import AssistedShell.Machine.Exec
import AssistedShell.Preview
import AssistedShell.Process.Descriptors
import AssistedShell.Text.Utf8

/-! The machine as the system under the shell. The shell is one of the programs of
the machine: a shell may run as a child of another. -/

namespace AssistedShell.Machine

/-- The shell's place on a machine: what its children read and write by default, where it
writes itself, and how much of its output is taken. -/
structure Console where
  input : Nat
  output : Nat
  error : Nat
  shellOutput : Nat
  shellError : Nat
  limit : Option Nat := none
  deriving Inhabited

/-- A machine with a shell on it. -/
structure Desk where
  machine : State
  console : Console
  /-- The bytes that the shell has written to its output. -/
  written : Nat := 0
  /-- The keys that were struck on the terminal, if there is one. -/
  keys : Option (List Key) := none
  /-- What a service without a network replies, one after another; the last reply stays. -/
  replies : List (Except CompletionFault String) := []
  /-- What that service was asked. -/
  asked : List CompletionRequest := []
  /-- What the shell has open besides its standard input and outputs. -/
  held : Descriptors Nat := .empty
  /-- The number of the shell's process. -/
  pid : Pid := shellPid
  /-- The signals that the shell was told to ignore. -/
  ignored : List Nat := []

namespace Desk

def onMachine {α : Type} (d : Desk) (a : Act α) : α × Desk :=
  let (r, m) := a.run d.machine
  (r, { d with machine := m })

def fault {α : Type} (r : Except Errno α) : Except Fault α := r.mapError Fault.system

/-- A path that the system can be given. -/
def checked {α : Type} (path : String) (r : Except Errno α) : Except Fault α :=
  if path.contains '\x00' then .error .nulInPath else fault r

/-- The open files of the shell. -/
def table (d : Desk) : Descriptors Nat :=
  ((d.held.insert 0 ⟨d.console.input, false⟩).insert 1 ⟨d.console.output, false⟩).insert 2
    ⟨d.console.error, false⟩

/-- Gives the shell a descriptor for an open file. -/
def hold (d : Desk) (file : Nat) : Descriptor × Desk :=
  let fd := d.table.lowest
  (fd, { d with held := d.held.insert fd ⟨file, true⟩ })

/-- Opens a file for the shell. -/
def openPath (d : Desk) (path : String) (a : Disk.Access) (append : Bool) :
    Except Fault Descriptor × Desk :=
  match checked path (d.machine.disk.openFile d.machine.directory path a) with
  | .error e => (.error e, d)
  | .ok (id, disk) =>
    let (f, m) := { d.machine with disk }.openAs ⟨.node id, 0, append, a.read, a.write⟩
    let (fd, d) := { d with machine := m }.hold f
    (.ok fd, d)

/-- Makes a text readable for the shell. -/
def stageText (d : Desk) (text : String) : Except Fault Descriptor × Desk :=
  let ((r, w), m) := d.machine.pipe
  let m :=
    match m.write w m.clock (.ofBytes text.toUTF8) with
    | .ok m => m
    | .error _ => m
  let (fd, d) := { d with machine := m }.hold r
  (.ok fd, d)

def makePipe (d : Desk) : Except Fault (Descriptor × Descriptor) × Desk :=
  let ((r, w), m) := d.machine.pipe
  let (reader, d) := { d with machine := m }.hold r
  let (writer, d) := d.hold w
  (.ok (reader, writer), d)

def close (d : Desk) (fd : Descriptor) : Desk := { d with held := d.held.erase fd }

/-- The signals that the shell does not let its children ignore. -/
def restored : List Nat := [2, 3, 13]

/-- A child's own view of the machine, when it has become another program. -/
def childContext (d : Desk) (env : Environment) (t : Descriptors Nat) (pid : Pid) : Context where
  directory := d.machine.directory
  descriptors := t.atExec.entries.map fun (fd, o) => (fd, o.leadsTo)
  environment := env
  words := []
  pid
  now := d.machine.clock
  parent := d.pid
  ignored := d.ignored.filter (!restored.contains ·)

/-- Marks a pipe's content as complete from a time on. -/
def settle (s : State) (file : Nat) (now : Nat) : State :=
  match s.files[file]? with
  | some ⟨.pipe id, _, _, _, _⟩ =>
    let p := (s.pipes[id]?).getD {}
    { s with pipes := s.pipes.insert id { p with ready := max p.ready now } }
  | _ => s

/-- Enters a process that has run into the table. -/
def enter (pid : Pid) (ending : Ending) (now : Nat) (stdout : Nat) : Act Unit :=
  modify fun s =>
    settle { s with processes := s.processes.insert pid ⟨ending, now⟩ } stdout now

/-- The end of a program with a complaint. -/
def giveUp (c : Context) (complaint : String) (code : UInt8) : Act Termination := do
  c.complain complaint
  return ⟨.exited code, c.now⟩

/-- Starts a child, which runs to its end. -/
def spawn (shell : Program) (d : Desk) (env : Environment) (child : Child) :
    Except Fault Pid × Desk :=
  let wired := child.wire d.table
  let context := d.childContext env (wired.getD d.table)
  let out := ((wired.getD d.table).leadsTo? 1).getD d.console.output
  d.onMachine do
    let pid := (← get).nextPid
    modify fun s => { s with nextPid := pid + 1 }
    let c := context pid
    let o ← child.live wired.isSome (exec shell launchDepth c) (giveUp c)
    enter pid o.ending o.now out
    return .ok pid

/-- Whether the processes that the shell starts leave nothing to collect. -/
def forgets (d : Desk) : Bool := d.ignored.contains Script.childSignal

/-- Waits for a process. If there will be nothing to collect it fails when the process ends. -/
def await (d : Desk) (pid : Pid) : Except Fault Ending × Desk :=
  match d.machine.processes[pid]? with
  | none => (.error (.system .noChild), d)
  | some p =>
    (if d.forgets then .error (.system .noChild) else .ok p.ending,
      { d with machine := { d.machine with
        clock := max d.machine.clock p.endsAt
        processes := d.machine.processes.erase pid } })

def poll (d : Desk) (pid : Pid) : Poll × Desk :=
  match d.machine.processes[pid]? with
  | none => (.unknown, d)
  | some p =>
    if p.endsAt ≤ d.machine.clock then
      (if d.forgets then .unknown else .ended p.ending, { d with machine := { d.machine with
        processes := d.machine.processes.erase pid } })
    else (.running, d)

/-- Lets time pass until every process has ended. -/
def drain (d : Desk) : Desk :=
  let latest := d.machine.processes.foldl (fun t _ p => max t p.endsAt) d.machine.clock
  { d with machine := { d.machine with clock := latest } }

def changeDirectory (d : Desk) (path : String) : Except Fault Unit × Desk :=
  match checked path (d.machine.disk.find d.machine.directory true path) with
  | .error e => (.error e, d)
  | .ok (id, n) =>
    if !n.isDirectory then (.error (.system .notDirectory), d)
    else if !n.mayEnter then (.error (.system .denied), d)
    else
      (.ok (), { d with machine := { d.machine with
        disk := anchored d.machine.disk d.pid id
        directory := id } })

def directory (d : Desk) : Except Fault String :=
  match d.machine.disk.pathOf? d.machine.directory with
  | some p => .ok p
  | none => .error (.system .noEntry)

def find? (d : Desk) (path : String) : Option (NodeId × Node) :=
  if path.contains '\x00' then none
  else (d.machine.disk.find d.machine.directory true path).toOption

/-- The bytes of a file. -/
def fileContent (d : Desk) (path : String) : Except Fault ByteArray :=
  match checked path (d.machine.disk.find d.machine.directory true path) with
  | .error e => .error e
  | .ok (_, n) =>
    if !n.mayRead then .error (.system .denied)
    else
      match n.content with
      | .file b => .ok b
      | .directory .. => .error (.system .isDirectory)
      | _ => .ok .empty

/-- What a directory lists. -/
def listing (d : Desk) (path : String) : List Listed :=
  match d.find? path with
  | none => []
  | some (id, n) =>
    if !n.mayRead || !n.mayEnter then []
    else
      (((d.machine.disk.directory? id).map (·.1)).getD []).filterMap fun (name, _) =>
        match d.machine.disk.find id true name with
        | .ok (_, n) => some ⟨name, n.isDirectory, n.isProgram⟩
        | .error _ => none

def makeDirectories (d : Desk) (path : String) : Except Fault Unit × Desk :=
  match checked path (d.machine.disk.makePath d.machine.directory path.length path) with
  | .error e => (.error e, d)
  | .ok disk => (.ok (), { d with machine := { d.machine with disk } })

/-- The mode of a file that is its owner's alone. -/
def privateMode : Nat := 0o600

/-- Opens a file that the shell adds to, or makes it its own. -/
def openPrivate (d : Desk) (path : String) : Except Fault (NodeId × Disk) :=
  checked path (d.machine.disk.openFile d.machine.directory path
    { write := true, create := true, mode := privateMode })

def makePrivate (d : Desk) (path : String) : Except Fault Unit × Desk :=
  match d.openPrivate path with
  | .error e => (.error e, d)
  | .ok (_, disk) => (.ok (), { d with machine := { d.machine with disk } })

def appendPrivate (d : Desk) (path : String) (bytes : ByteArray) : Except Fault Unit × Desk :=
  match d.openPrivate path with
  | .error e => (.error e, d)
  | .ok (id, disk) =>
    let disk := disk.setMode id privateMode
    let disk := disk.setBytes id ((disk.bytes? id).getD .empty ++ bytes)
    (.ok (), { d with machine := { d.machine with disk } })

/-- Takes all that the children's input still holds. -/
def takeInput (d : Desk) : ByteArray × Desk :=
  match d.machine.pending d.console.input with
  | .ok (data, ready) =>
    let m := d.machine.consumed d.console.input data.bytes.size {}
    (data.bytes, { d with machine := { m with clock := max m.clock ready } })
  | .error _ => (.empty, d)

def writeTo (d : Desk) (file : Nat) (text : String) : Desk :=
  match d.machine.write file d.machine.clock (.ofBytes text.toUTF8) with
  | .ok m => { d with machine := m }
  | .error _ => d

def writeOut (d : Desk) (text : String) : Except Fault Unit × Desk :=
  let total := d.written + text.utf8ByteSize
  if (d.console.limit.map (decide <| · < total)).getD false then (.error (.system .inputOutput), d)
  else (.ok (), { d.writeTo d.console.shellOutput text with written := total })

def writeErr (d : Desk) (text : String) : Except Fault Unit × Desk :=
  (.ok (), d.writeTo d.console.shellError text)

/-- The program that reads commands of the script language. -/
def scriptShell : String := "/bin/sh"

/-- All that went into a pipe. -/
def pipeContent (s : State) (file : Nat) : ByteArray :=
  match s.pending file with
  | .ok (data, _) => data.bytes
  | .error _ => .empty

/-- Opens what has nothing to read. -/
def openNull (s : State) : Nat × State :=
  match s.disk.find Disk.root true "/dev/null" with
  | .ok (id, _) => s.openAs ⟨.node id, 0, false, true, false⟩
  | .error _ => s.openAs ⟨.node Disk.root, 0, false, false, false⟩

def captureOn (shell : Program) (d : Desk) (env : Environment) (command directory : String) :
    Except Fault Captured × Desk :=
  if command.contains '\x00' || directory.contains '\x00' then (.error .nulInArgument, d)
  else
    match d.machine.disk.find d.machine.directory true directory with
    | .error e => (.error (.system e), d)
    | .ok (id, n) =>
      if !n.isDirectory then (.error (.system .notDirectory), d)
      else if !n.mayEnter then (.error (.system .denied), d)
      else
        d.onMachine do
          let (outRead, outWrite) ← (fun s => s.pipe)
          let (errRead, errWrite) ← (fun s => s.pipe)
          let quiet : Nat ← openNull
          let s ← get
          let pid := s.nextPid
          modify fun s => { s with nextPid := pid + 1 }
          let c : Context := { d.childContext env .empty pid with
            directory := id, descriptors := [(0, quiet), (1, outWrite), (2, errWrite)] }
          match ← exec shell launchDepth c scriptShell [scriptShell, "-c", command] with
          | .error e => return .error (.system e)
          | .ok o =>
            let s ← get
            set { s with clock := max s.clock o.now }
            if d.forgets then return .error (.system .noChild)
            return .ok ⟨o.ending.status,
              Text.decodeLossy (pipeContent s outRead) ++ Text.decodeLossy (pipeContent s errRead)⟩

/-- Writes texts one after another, up to the first that fails. -/
def writeAll : List String → Desk → Except Fault Unit × Desk
  | [], d => (.ok (), d)
  | t :: ts, d =>
    match d.writeOut t with
    | (.ok (), d) => writeAll ts d
    | (.error e, d) => (.error e, d)

/-- Previews a suggested command for some time. Without a terminal or without time it is only
shown. The time is long enough for all keys. -/
def preview (prompt command : String) (milliseconds : Nat) (d : Desk) :
    Except Fault Decision × Desk :=
  match d.keys, milliseconds with
  | some keys, _ + 1 =>
    let (decision, shown) := Preview.run prompt command keys
    match d.writeOut shown with
    | (.ok (), d) => (.ok decision, d)
    | (.error e, d) => (.error e, d)
  | _, _ =>
    match writeAll [prompt, command, "\n"] d with
    | (.ok (), d) => (.ok (.run command), d)
    | (.error e, d) => (.error e, d)

/-- The service whose replies are known beforehand. -/
def rehearsed : Service Desk := fun request d =>
  let d := { d with asked := d.asked ++ [request] }
  match d.replies with
  | [] => (.error .emptyResponse, d)
  | [reply] => (reply, d)
  | reply :: replies => (reply, { d with replies })

/-- The machine as a host, on which a shell that runs as a program is `shell`. No server is within
its reach, and nothing is kept of its users. -/
def hostOn (shell : Program) : Host Desk where
  openInput path d := d.openPath path { read := true } false
  openOutput path append d :=
    d.openPath path { write := true, create := true, truncate := !append } append
  stageText text d := d.stageText text
  makePipe d := d.makePipe
  close fd d := d.close fd
  spawn env child d := d.spawn shell env child
  await pid d := d.await pid
  poll pid d := d.poll pid
  changeDirectory path d := d.changeDirectory path
  directory d := d.directory
  home? _ env := env.home?
  runnable d path := ((d.find? path).map fun (_, n) => n.isRegular && n.mayEnter).getD false
  present d path := (d.find? path).isSome
  isDirectory d path := ((d.find? path).map fun (_, n) => n.isDirectory).getD false
  canonical d path := checked path (d.machine.disk.canonical d.machine.directory path)
  fileContent d path := d.fileContent path
  listing d path := d.listing path
  makeDirectories path d := d.makeDirectories path
  makePrivate path d := d.makePrivate path
  appendPrivate path bytes d := d.appendPrivate path bytes
  readInput d := d.takeInput
  writeOut text d := d.writeOut text
  writeErr text d := d.writeErr text
  capture env command directory d := d.captureOn shell env command directory
  preview prompt command milliseconds d := preview prompt command milliseconds d
  setUpClient _ _ := .ok ()
  send request d := (Http.sendNowhere request, d)
  explain _ := "not a completion"

theorem honoursHome_hostOn (shell : Program) : (hostOn shell).HonoursHome := fun _ _ _ hh => hh

/-! ### The shell as a program -/

/-- The open file behind a descriptor of a program; there is one behind each of a shell's
standard ones. -/
def standard (c : Context) (fd : Nat) : Act Nat :=
  match c.file? fd with
  | some file => return file
  | none => openNull

/-- Runs a shell as a program. Its children, its clock and its working directory are its own. -/
def asProgram (run : Environment → List String → Desk → Nat × Desk) : Program := fun c args => do
  let input ← standard c 0
  let output ← standard c 1
  let error ← standard c 2
  let s ← get
  let (status, d) := run c.environment args {
    machine := { s with processes := {}, clock := c.now, directory := c.directory }
    console := ⟨input, output, error, output, error, none⟩
    pid := c.pid
    ignored := c.ignored }
  set { d.machine with processes := s.processes, clock := s.clock, directory := s.directory }
  return ⟨.exited (UInt8.ofNat status), d.machine.clock⟩

/-- The shell that runs as a program, with so many others inside one another. -/
def nested : Nat → Program
  | 0 => fun c _ => return c.exit ExitCode.notExecutable.toNat
  | depth + 1 => asProgram (CommandLine.run (hostOn (nested depth)))

/-- The machine as a host. -/
def host : Host Desk := hostOn (nested launchDepth)

/-- Runs a command of the script language and keeps what it writes. -/
def capture (d : Desk) (env : Environment) (command directory : String) :
    Except Fault Captured × Desk := host.capture env command directory d

/-! ### Setting up -/

/-- A desk on a disk. Children and the shell write to one place, or each to its own; children
read from a stream, or nothing. -/
def onDisk (disk : Disk) (directory : NodeId) (shared : Bool) (input : Option ByteArray) : Desk :=
  let m : State := { disk := anchored disk shellPid directory, directory }
  let (inFile, m) :=
    match input with
    | some bytes =>
      let ((r, w), m) := m.pipe
      match m.write w 0 (.ofBytes bytes) with
      | .ok m => (r, m)
      | .error _ => (r, m)
    | none => openNull m
  let ((_, out), m) := m.collector
  let ((_, err), m) := m.collector
  if shared then { machine := m, console := ⟨inFile, out, err, out, err, none⟩ }
  else
    let ((_, shellOut), m) := m.collector
    let ((_, shellErr), m) := m.collector
    { machine := m, console := ⟨inFile, out, err, shellOut, shellErr, none⟩ }

/-- What was written to an open file that collects. -/
def collected (d : Desk) (file : Nat) : ByteArray :=
  match d.machine.files[file]? with
  | some ⟨.collector id, _, _, _, _⟩ => d.machine.collectedBy id
  | _ => .empty

/-- Forgets what was written to an open file that collects. -/
def clear (d : Desk) (file : Nat) : Desk :=
  match d.machine.files[file]? with
  | some ⟨.collector id, _, _, _, _⟩ => { d with machine := d.machine.clearCollector id }
  | _ => d

end Desk

end AssistedShell.Machine
