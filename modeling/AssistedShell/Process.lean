import AssistedShell.Fault

/-! Processes as the shell sees them: what a child runs, and how it ends. -/

namespace AssistedShell

abbrev Pid := Nat

/-- An entry of the shell's own table of open files. -/
abbrev Descriptor := Nat

/-- How a process ended. -/
inductive Ending where
  | exited (code : UInt8)
  | killed (signal : Fin 128)
  deriving DecidableEq, Repr, Inhabited

/-- The status of an ending: the exit code, or 128 and the signal. -/
def Ending.status : Ending → Nat
  | .exited code => code.toNat
  | .killed signal => 128 + signal

theorem Ending.status_lt (e : Ending) : e.status < 256 := by
  cases e with
  | exited code => exact code.toNat_lt
  | killed signal => have := signal.isLt; simp only [status]; omega

/-- The answer to the question whether a process has ended. -/
inductive Poll where
  | running
  | ended (ending : Ending)
  | unknown
  deriving DecidableEq, Repr, Inhabited

/-- The status of a process that runs no more; one that nobody knows counts as successful. -/
def Poll.status? : Poll → Option Nat
  | .running => none
  | .ended e => some e.status
  | .unknown => some 0

/-- What a new process does once its files are in place. -/
inductive Image where
  /-- Runs a program; `complaint` is written if that fails. -/
  | program (path : String) (words : List String) (complaint : String)
  /-- Writes a complaint and exits. -/
  | refusal (complaint : String) (code : UInt8)
  deriving DecidableEq, Repr, Inhabited

/-- A process to be started: standard input and output are those of the shell unless given. -/
structure Child where
  image : Image
  stdin : Option Descriptor
  stdout : Option Descriptor
  deriving DecidableEq, Repr, Inhabited

namespace ExitCode

/-- The exit code of a command that could not be found. -/
def notFound : UInt8 := 127

/-- The exit code of a command that exists and cannot be executed. -/
def notExecutable : UInt8 := 126

/-- The exit code of a process whose program the system would not run. -/
def ofErrno (e : Errno) : UInt8 := if e = .noEntry then notFound else notExecutable

theorem ofErrno_of_ne {e : Errno} (he : e ≠ .noEntry) : ofErrno e = notExecutable := if_neg he

end ExitCode

namespace Child

/-- What a child says that could not put its input or output in place. -/
def misplaced : String := "ghsh: failed to redirect descriptor\n"

variable {m : Type → Type} [Monad m] {α : Type}

/-- What a child does from its start on, on any system: `wired` says whether its input and output
are in place, `exec` runs a program in the child's stead, and `exit` ends it with a complaint. -/
def live (c : Child) (wired : Bool) (exec : String → List String → m (Except Errno α))
    (exit : String → UInt8 → m α) : m α :=
  match wired, c.image with
  | false, _ => exit misplaced ExitCode.notExecutable
  | true, .refusal complaint code => exit complaint code
  | true, .program path words complaint => do
    match ← exec path words with
    | .ok a => return a
    | .error e => exit complaint (ExitCode.ofErrno e)

section
variable {c : Child} {exec : String → List String → m (Except Errno α)}
  {exit : String → UInt8 → m α}

theorem live_refusal {complaint : String} {code : UInt8} (hi : c.image = .refusal complaint code) :
    c.live true exec exit = exit complaint code := by simp only [live, hi]

theorem live_program {path complaint : String} {words : List String}
    (hi : c.image = .program path words complaint) :
    c.live true exec exit =
      exec path words >>= fun
        | .ok a => pure a
        | .error e => exit complaint (ExitCode.ofErrno e) := by
  simp only [live, hi]

end

end Child

end AssistedShell
