import AssistedShell.Assistant.Basic
import AssistedShell.Builtin
import AssistedShell.Job
import AssistedShell.Prompt
import AssistedShell.Settings.Basic

/-! A session of the shell: its settings, where it works, what the last command
came to, its jobs and its assistant. -/

namespace AssistedShell

/-- Whether a session has its assistant. The first attempt to get one decides. -/
inductive Availability (σ : Type) where
  | untried
  | ready (assistant : Assistant σ)
  | unavailable (reason : String)

structure Session (σ : Type) where
  system : σ
  settings : Settings
  environment : Environment
  /-- The directory in which commands run. -/
  directory : String
  lastStatus : Nat := 0
  /-- The status of the first `exit`. -/
  exitLatch : Option Nat := none
  /-- Whether the shell's process broke down. -/
  crashed : Bool := false
  jobs : JobTable := {}
  assistant : Availability σ := .untried
  /-- The number of scripts that are being run, one inside another. -/
  depth : Nat := 0

namespace Session

variable {σ : Type} (h : Host σ)

/-- A new session in the working directory of its process. -/
def start (settings : Settings) (environment : Environment) (s : σ) : Except Fault (Session σ) :=
  (h.directory s).map fun directory => { system := s, settings, environment, directory }

/-- Whether no further line is to be executed. -/
def isOver (s : Session σ) : Bool := s.exitLatch.isSome || s.crashed

/-- The status with which the shell ends. -/
def exitStatus (s : Session σ) : Nat := s.exitLatch.getD s.lastStatus

/-- Writes to the shell's output; whether that succeeds does not matter. -/
def say (s : Session σ) (text : String) : Session σ :=
  { s with system := (h.writeOut text s.system).2 }

/-- Writes a diagnostic. -/
def report (s : Session σ) (message : String) : Session σ :=
  { s with system := (h.writeErr ("ghsh: " ++ message ++ "\n") s.system).2 }

/-- The user's home directory, as the session's environment and its system have it now. -/
def home? (s : Session σ) : Option String := h.home? s.system s.environment

/-- The prompt before a command line. -/
def prompt (s : Session σ) : String :=
  Prompt.render (Prompt.currentUser s.environment) s.directory (s.home? h) false

/-- Collects the jobs that have finished and announces them. -/
def reapJobs (s : Session σ) : Session σ :=
  let ((finished, jobs), system) := s.jobs.reap h s.system
  finished.foldl (fun s j => s.say h j.notice) { s with jobs, system }

end Session

end AssistedShell
