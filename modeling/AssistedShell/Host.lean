import AssistedShell.Environment
import AssistedShell.Fault
import AssistedShell.Http.Request
import AssistedShell.Process

/-! What the shell asks of the system, as functions on a state of the system.
Everything the shell does happens through these, so that it can be run on any
system that has them. -/

namespace AssistedShell

/-- What a command wrote while nobody watched, and its status. -/
structure Captured where
  status : Nat
  text : String
  deriving DecidableEq, Repr, Inhabited

/-- The user's decision about a suggested command. -/
inductive Decision where
  | run (command : String)
  | cancelled
  deriving DecidableEq, Repr, Inhabited

/-- What a directory lists: a name and what it leads to. -/
structure Listed where
  name : String
  isDirectory : Bool
  /-- Whether it is a regular file that somebody may run. -/
  isProgram : Bool
  deriving DecidableEq, Repr, Inhabited

structure Host (σ : Type) where
  /-- Opens a file for reading. -/
  openInput : String → σ → Except Fault Descriptor × σ
  /-- Opens a file for writing, at its end or emptied. -/
  openOutput : String → Bool → σ → Except Fault Descriptor × σ
  /-- Makes a text readable. -/
  stageText : String → σ → Except Fault Descriptor × σ
  /-- Makes a pipe: its reading end and its writing end. -/
  makePipe : σ → Except Fault (Descriptor × Descriptor) × σ
  close : Descriptor → σ → σ
  /-- Starts a process. -/
  spawn : Environment → Child → σ → Except Fault Pid × σ
  /-- Waits for a process and collects its ending. -/
  await : Pid → σ → Except Fault Ending × σ
  /-- Collects the ending of a process if it has ended. -/
  poll : Pid → σ → Poll × σ
  changeDirectory : String → σ → Except Fault Unit × σ
  /-- The working directory of the shell's process. -/
  directory : σ → Except Fault String
  /-- The user's home directory: what the environment names, or what is kept of the user. -/
  home? : σ → Environment → Option String
  /-- Whether a path leads to a regular file that may be run. -/
  runnable : σ → String → Bool
  /-- Whether a path leads to anything. -/
  present : σ → String → Bool
  isDirectory : σ → String → Bool
  /-- The absolute path without links to what a path leads to. -/
  canonical : σ → String → Except Fault String
  fileContent : σ → String → Except Fault ByteArray
  /-- What a directory lists; names that lead nowhere are left out. -/
  listing : σ → String → List Listed
  /-- Makes a directory and those above it. -/
  makeDirectories : String → σ → Except Fault Unit × σ
  /-- Makes a file that only its owner may read, unless there is a file already. -/
  makePrivate : String → σ → Except Fault Unit × σ
  /-- Adds to a file that only its owner may read, in one piece. -/
  appendPrivate : String → ByteArray → σ → Except Fault Unit × σ
  /-- Takes all that the shell's input still holds. -/
  readInput : σ → ByteArray × σ
  /-- Writes to the shell's own output. -/
  writeOut : String → σ → Except Fault Unit × σ
  /-- Writes to the shell's own error output. -/
  writeErr : String → σ → Except Fault Unit × σ
  /-- Runs a command of the system's script language in a directory and keeps what it writes. -/
  capture : Environment → (command directory : String) → σ → Except Fault Captured × σ
  /-- Shows a suggested command after a prompt, for so long, and takes the user's decision. -/
  preview : (prompt command : String) → (milliseconds : Nat) → σ → Except Fault Decision × σ
  /-- Sets up what sends requests, in an environment. No request is sent; a failure has a reason. -/
  setUpClient : σ → Environment → Except String Unit
  /-- Sends a request. -/
  send : Http.Request → σ → Except Http.TransportFault Http.Response × σ
  /-- The words for an answer that cannot be decoded. -/
  explain : List UInt8 → String

/-- Whether the home directory that the environment names is the user's, whatever else the system
knows. -/
def Host.HonoursHome {σ : Type} (h : Host σ) : Prop :=
  ∀ s env home, env.home? = some home → h.home? s env = some home

/-- A text file's content. -/
def Host.readText {σ : Type} (h : Host σ) (s : σ) (path : String) : Except Fault String :=
  match h.fileContent s path with
  | .error e => .error e
  | .ok bytes =>
    match String.fromUTF8? bytes with
    | some text => .ok text
    | none => .error .notText

end AssistedShell
