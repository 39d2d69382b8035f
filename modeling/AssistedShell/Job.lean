import AssistedShell.Host
import AssistedShell.Text.Blank

/-! Background jobs: pipelines that run while the shell goes on. -/

namespace AssistedShell

/-- A pipeline in the background with those of its processes whose ending is not yet known. -/
structure Job where
  id : Nat
  cmdline : String
  pids : List Pid
  lastStatus : Nat := 0
  deriving DecidableEq, Repr, Inhabited

/-- A job of which no process runs any more. -/
structure FinishedJob where
  id : Nat
  cmdline : String
  status : Nat
  deriving DecidableEq, Repr, Inhabited

/-- The jobs in the order in which they came. -/
structure JobTable where
  jobs : List Job := []
  deriving DecidableEq, Repr, Inhabited

namespace Job

/-- Asks once after each of the processes `pids`; the ending of `last` gives the status. -/
def pollAll {σ : Type} (h : Host σ) (last : Option Pid) : List Pid → Nat → σ → (List Pid × Nat) × σ
  | [], status, s => (([], status), s)
  | pid :: pids, status, s =>
    let (poll, s) := h.poll pid s
    match poll.status? with
    | none =>
      let ((kept, status), s) := pollAll h last pids status s
      ((pid :: kept, status), s)
    | some ended => pollAll h last pids (if last = some pid then ended else status) s

/-- The job after asking once after each of its processes. -/
def poll {σ : Type} (h : Host σ) (j : Job) (s : σ) : Job × σ :=
  let ((pids, lastStatus), s) := pollAll h j.pids.getLast? j.pids j.lastStatus s
  ({ j with pids, lastStatus }, s)

def isFinished (j : Job) : Bool := j.pids.isEmpty

def finish (j : Job) : FinishedJob := ⟨j.id, j.cmdline, j.lastStatus⟩

end Job

/-- What is said of a job that has finished. -/
def FinishedJob.notice (j : FinishedJob) : String :=
  let outcome := if j.status = 0 then "Done" else "Exit " ++ toString j.status
  "[" ++ toString j.id ++ "] " ++ outcome ++ " " ++ j.cmdline ++ "\n"

namespace JobTable

/-- The number of the next job: one more than the largest in use. -/
def nextId (t : JobTable) : Nat := (t.jobs.map Job.id).foldl max 0 + 1

/-- Enters the processes of a pipeline as a job, under the table's next number. -/
def add (t : JobTable) (pids : List Pid) (cmdline : String) : JobTable :=
  ⟨t.jobs ++ [⟨t.nextId, cmdline.trimBlank, pids, 0⟩]⟩

/-- Asks after the processes of each job in turn. -/
def pollJobs {σ : Type} (h : Host σ) : List Job → σ → List Job × σ
  | [], s => ([], s)
  | j :: js, s =>
    let (j, s) := j.poll h s
    let (js, s) := pollJobs h js s
    (j :: js, s)

/-- Takes the jobs that have finished out of the table. -/
def reap {σ : Type} (h : Host σ) (t : JobTable) (s : σ) : (List FinishedJob × JobTable) × σ :=
  let (jobs, s) := pollJobs h t.jobs s
  (((jobs.filter Job.isFinished).map Job.finish, ⟨jobs.filter (!·.isFinished)⟩), s)

end JobTable

end AssistedShell
