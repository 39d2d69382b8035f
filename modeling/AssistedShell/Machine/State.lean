import AssistedShell.Environment
import AssistedShell.Machine.Disk
import AssistedShell.Machine.Stream
import AssistedShell.Process

/-! The state of a machine: its disk, the pipes and open files, the processes
with the times at which they end, and the collectors of what is written to
standard output and standard error. Processes run to their end as soon as they
start, each on a clock of its own; the machine's clock says how many of them
have ended for those who ask. -/

namespace AssistedShell.Machine

/-- What a pipe holds, and since when it holds all of it. -/
structure Pipe where
  content : Stream := {}
  ready : Nat := 0
  deriving Inhabited

/-- What an open file reads from and writes to. -/
inductive Target where
  | node (id : NodeId)
  | pipe (id : Nat)
  | collector (id : Nat)
  deriving DecidableEq, Repr, Inhabited

structure OpenFile where
  target : Target
  offset : Nat := 0
  append : Bool := false
  readable : Bool := false
  writable : Bool := false
  deriving Inhabited

/-- A process that was started. -/
structure Process where
  ending : Ending
  endsAt : Nat
  deriving Inhabited

structure State where
  disk : Disk := .empty
  pipes : Std.TreeMap Nat Pipe := {}
  files : Std.TreeMap Nat OpenFile := {}
  processes : Std.TreeMap Pid Process := {}
  /-- What each collector got, with the times. -/
  collected : Std.TreeMap Nat (Array (Nat × ByteArray)) := {}
  clock : Nat := 0
  /-- The shell's own working directory. -/
  directory : NodeId := 0
  /-- Numbers not yet given to pipes, open files and collectors. -/
  next : Nat := 0
  nextPid : Pid := 1000

/-- A running program's own view: its working directory, open files by descriptor,
environment, words, number, time, the number of the process that started it and the signals
that it was told to ignore. -/
structure Context where
  directory : NodeId
  descriptors : List (Nat × Nat)
  environment : Environment
  words : List String
  pid : Pid
  now : Nat
  parent : Pid := 0
  ignored : List Nat := []
  deriving Inhabited

/-- How a program ended, and when. -/
structure Termination where
  ending : Ending
  now : Nat
  deriving Inhabited

abbrev Act := StateM State

/-- A program that is called with arguments. -/
abbrev Program := Context → List String → Act Termination

/-- Runs the program at a path, under the words that it is called with. -/
abbrev Loader := Context → String → List String → Act (Except Errno Termination)

namespace State

def fresh (s : State) : Nat × State := (s.next, { s with next := s.next + 1 })

/-- Opens a file of the table. -/
def openAs (s : State) (f : OpenFile) : Nat × State :=
  let (id, s) := s.fresh
  (id, { s with files := s.files.insert id f })

/-- A new pipe: its reading end and its writing end. -/
def pipe (s : State) : (Nat × Nat) × State :=
  let (id, s) := s.fresh
  let s := { s with pipes := s.pipes.insert id {} }
  let (r, s) := s.openAs ⟨.pipe id, 0, false, true, false⟩
  let (w, s) := s.openAs ⟨.pipe id, 0, false, false, true⟩
  ((r, w), s)

/-- A new collector: its number, and an open file that writes to it. -/
def collector (s : State) : (Nat × Nat) × State :=
  let (id, s) := s.fresh
  let s := { s with collected := s.collected.insert id #[] }
  let (w, s) := s.openAs ⟨.collector id, 0, false, false, true⟩
  ((id, w), s)

/-- Everything a collector got, in the order of the times. -/
def collectedBy (s : State) (id : Nat) : ByteArray :=
  let parts := ((s.collected[id]?).getD #[]).toList.mergeSort fun a b => a.1 ≤ b.1
  parts.foldl (fun acc p => acc ++ p.2) .empty

/-- Empties a collector. -/
def clearCollector (s : State) (id : Nat) : State :=
  { s with collected := s.collected.insert id #[] }

/-- Content put at an offset of a file; what lies between is zero. -/
def overwrite (old : ByteArray) (offset : Nat) (new : ByteArray) : ByteArray :=
  let front :=
    if old.size < offset then old ++ ⟨Array.replicate (offset - old.size) 0⟩
    else old.extract 0 offset
  front ++ new ++ old.extract (offset + new.size) old.size

/-- Writes to an open file at a time. -/
def write (s : State) (file : Nat) (now : Nat) (data : Stream) : Except Errno State :=
  match s.files[file]? with
  | none => .error .badDescriptor
  | some f =>
    if !f.writable then .error .badDescriptor
    else
      match f.target with
      | .pipe id =>
        let p := (s.pipes[id]?).getD {}
        .ok { s with pipes := s.pipes.insert id ⟨p.content.append data, max p.ready now⟩ }
      | .collector id =>
        let got := (s.collected[id]?).getD #[]
        .ok { s with collected := s.collected.insert id (got.push (now, data.bytes)) }
      | .node id =>
        match s.disk.get? id with
        | some ⟨_, .file old⟩ =>
          let start := if f.append then old.size else f.offset
          .ok { s with
            disk := s.disk.setBytes id (overwrite old start data.bytes)
            files := s.files.insert file { f with offset := start + data.bytes.size } }
        | _ => .ok s

/-- A zero byte over and over. -/
def zeros : Stream := ⟨.empty, some ⟨#[0]⟩⟩

/-- What an open file still has to give, and since when. -/
def pending (s : State) (file : Nat) : Except Errno (Stream × Nat) :=
  match s.files[file]? with
  | none => .error .badDescriptor
  | some f =>
    if !f.readable then .error .badDescriptor
    else
      match f.target with
      | .pipe id =>
        let p := (s.pipes[id]?).getD {}
        .ok (p.content, p.ready)
      | .collector _ => .ok ({}, 0)
      | .node id =>
        match s.disk.get? id with
        | some ⟨_, .file bytes⟩ => .ok (.ofBytes (bytes.extract f.offset bytes.size), 0)
        | some ⟨_, .directory ..⟩ => .error .isDirectory
        | some ⟨_, .device .zero⟩ => .ok (zeros, 0)
        | _ => .ok ({}, 0)

/-- Notes that `n` bytes of an open file have been read, and `rest` remains. -/
def consumed (s : State) (file : Nat) (n : Nat) (rest : Stream) : State :=
  match s.files[file]? with
  | none => s
  | some f =>
    match f.target with
    | .pipe id =>
      let p := (s.pipes[id]?).getD {}
      { s with pipes := s.pipes.insert id { p with content := rest } }
    | _ => { s with files := s.files.insert file { f with offset := f.offset + n } }

end State

namespace Context

/-- The open file behind a descriptor. -/
def file? (c : Context) (fd : Nat) : Option Nat := c.descriptors.lookup fd

def setFile (c : Context) (fd : Nat) (file : Nat) : Context :=
  { c with descriptors := (fd, file) :: c.descriptors.filter (·.1 ≠ fd) }

def closeFile (c : Context) (fd : Nat) : Context :=
  { c with descriptors := c.descriptors.filter (·.1 ≠ fd) }

/-- The same program not before a time. -/
def later (c : Context) (now : Nat) : Context := { c with now := max c.now now }

/-- Writes a stream to a descriptor. -/
def writeStream (c : Context) (fd : Nat) (data : Stream) : Act (Option Errno) := fun s =>
  match c.file? fd with
  | none => (some .badDescriptor, s)
  | some f =>
    match s.write f c.now data with
    | .ok s => (none, s)
    | .error e => (some e, s)

def writeBytes (c : Context) (fd : Nat) (data : ByteArray) : Act (Option Errno) :=
  c.writeStream fd (.ofBytes data)

def say (c : Context) (text : String) : Act Unit := do
  let _ ← c.writeBytes 1 text.toUTF8

def complain (c : Context) (text : String) : Act Unit := do
  let _ ← c.writeBytes 2 text.toUTF8

/-- All that a descriptor still has to give. -/
def readAll (c : Context) (fd : Nat) : Act (Except Errno (Stream × Nat)) := fun s =>
  match c.file? fd with
  | none => (.error .badDescriptor, s)
  | some f =>
    match s.pending f with
    | .error e => (.error e, s)
    | .ok (data, ready) => (.ok (data, ready), s.consumed f data.bytes.size {})

/-- Some of what a descriptor has to give: `split` says how much. -/
def readPart (c : Context) (fd : Nat) (split : Stream → ByteArray × Stream) :
    Act (Except Errno (ByteArray × Nat)) := fun s =>
  match c.file? fd with
  | none => (.error .badDescriptor, s)
  | some f =>
    match s.pending f with
    | .error e => (.error e, s)
    | .ok (data, ready) =>
      let (part, rest) := split data
      (.ok (part, ready), s.consumed f part.size rest)

def exit (c : Context) (code : Nat) : Termination := ⟨.exited (UInt8.ofNat code), c.now⟩

end Context

end AssistedShell.Machine
