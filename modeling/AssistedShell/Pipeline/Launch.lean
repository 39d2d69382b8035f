import AssistedShell.Job
import AssistedShell.Pipeline.Plan
import AssistedShell.Program

/-! Running pipelines. Every file is opened and every program found before the
first process starts. Then the stages start from left to right, each joined to
the next by a pipe, and the shell closes what it gave to a stage as soon as the
stage has it: the reading end of a pipe stays open for one stage more. -/

namespace AssistedShell

/-- Why a pipeline did not run, or not to its end. -/
inductive LaunchFault where
  | redirect (path : String) (fault : Fault)
  | hereDoc (fault : Fault)
  | nul (name : String)
  | pipe (fault : Fault)
  | spawn (fault : Fault)
  | wait (fault : Fault)
  deriving DecidableEq, Repr, Inhabited

def LaunchFault.message : LaunchFault → String
  | .redirect path f => path ++ ": " ++ f.message
  | .hereDoc f => "failed to stage here-document: " ++ f.message
  | .nul name => name ++ ": argument contains a NUL byte"
  | .pipe f => "failed to create pipe: " ++ f.message
  | .spawn f => "fork failed: " ++ f.message
  | .wait f => "waitpid failed: " ++ f.message

/-- A stage that is ready to start, with the files that its redirections opened. -/
structure Prepared where
  image : Image
  stdin : Option Descriptor
  stdout : Option Descriptor
  deriving DecidableEq, Repr, Inhabited

/-- The open files of a stage. -/
def Prepared.descriptors (p : Prepared) : List Descriptor := p.stdin.toList ++ p.stdout.toList

namespace Launch

variable {σ : Type} (h : Host σ)

def closeAll : List Descriptor → σ → σ
  | [], s => s
  | d :: ds, s => closeAll ds (h.close d s)

/-! ### Before the start -/

/-- Opens what a stage is to read, unless it reads a pipe or what the shell reads. -/
def openStdin (cwd : String) (plan : StdinPlan) (s : σ) :
    Except LaunchFault (Option Descriptor) × σ :=
  match plan with
  | .inherit | .pipe => (.ok none, s)
  | .file path =>
    let (r, s) := h.openInput (joinPath cwd path) s
    ((r.map some).mapError (.redirect path), s)
  | .hereDoc text =>
    let (r, s) := h.stageText text s
    ((r.map some).mapError .hereDoc, s)

/-- Opens what a stage is to write. -/
def openStdout (cwd : String) (plan : StdoutPlan) (s : σ) :
    Except LaunchFault (Option Descriptor) × σ :=
  match plan with
  | .inherit | .pipe => (.ok none, s)
  | .file target =>
    let (r, s) := h.openOutput (joinPath cwd target.path) target.append s
    ((r.map some).mapError (.redirect target.path), s)

/-- What the process of a stage will do. -/
def image (env : Environment) (cwd : String) (stage : Stage) (s : σ) : Except LaunchFault Image :=
  let about := fun complaint => "ghsh: " ++ stage.name ++ ": " ++ complaint ++ "\n"
  match Program.resolve (h.runnable s) (h.present s) env cwd (env.get? "PATH") stage.name with
  | .notFound => .ok (.refusal (about "command not found") ExitCode.notFound)
  | .notExecutable => .ok (.refusal (about "permission denied") ExitCode.notExecutable)
  | .found path =>
    if (path :: stage.words).any (·.contains '\x00') then .error (.nul stage.name)
    else .ok (.program path stage.words (about "cannot execute"))

/-- Makes a stage ready. -/
def prepare (env : Environment) (cwd : String) (stage : Stage) (plan : StagePlan) (s : σ) :
    Except LaunchFault Prepared × σ :=
  match openStdin h cwd plan.stdin s with
  | (.error e, s) => (.error e, s)
  | (.ok stdin, s) =>
    match openStdout h cwd plan.stdout s with
    | (.error e, s) => (.error e, closeAll h stdin.toList s)
    | (.ok stdout, s) =>
      match image h env cwd stage s with
      | .error e => (.error e, closeAll h (stdin.toList ++ stdout.toList) s)
      | .ok image => (.ok ⟨image, stdin, stdout⟩, s)

/-- Makes all stages ready, or none. -/
def prepareAll (env : Environment) (cwd : String) :
    List (Stage × StagePlan) → σ → Except LaunchFault (List Prepared) × σ
  | [], s => (.ok [], s)
  | (stage, plan) :: rest, s =>
    match prepare h env cwd stage plan s with
    | (.error e, s) => (.error e, s)
    | (.ok p, s) =>
      match prepareAll env cwd rest s with
      | (.error e, s) => (.error e, closeAll h p.descriptors s)
      | (.ok ps, s) => (.ok (p :: ps), s)

/-! ### The start -/

/-- The processes that were started, first stage first, and what kept the others from it. -/
structure Started where
  pids : List Pid
  fault : Option LaunchFault
  deriving DecidableEq, Repr, Inhabited

/-- Makes the pipe behind a stage, if another one comes after it. -/
def pipeAfter (rest : List Prepared) (s : σ) :
    Except Fault (Option (Descriptor × Descriptor)) × σ :=
  if rest.isEmpty then (.ok none, s)
  else
    let (r, s) := h.makePipe s
    (r.map some, s)

/-- The descriptors that wait for a stage which does not start. -/
def waiting (previous : Option Descriptor) (stages : List Prepared) : List Descriptor :=
  previous.toList ++ stages.flatMap Prepared.descriptors

/-- Starts the stages; the first of them reads from `previous`, if that is a pipe's end. -/
def start (env : Environment) : List Prepared → Option Descriptor → σ → Started × σ
  | [], previous, s => (⟨[], none⟩, closeAll h previous.toList s)
  | p :: rest, previous, s =>
    match pipeAfter h rest s with
    | (.error e, s) => (⟨[], some (.pipe e)⟩, closeAll h (waiting previous (p :: rest)) s)
    | (.ok pipe, s) =>
      let reader := pipe.map (·.1)
      let writer := pipe.map (·.2)
      match h.spawn env ⟨p.image, previous <|> p.stdin, writer <|> p.stdout⟩ s with
      | (.error e, s) =>
        (⟨[], some (.spawn e)⟩,
          closeAll h (reader.toList ++ writer.toList ++ waiting previous (p :: rest)) s)
      | (.ok pid, s) =>
        let s := closeAll h (p.descriptors ++ writer.toList ++ previous.toList) s
        let (started, s) := start env rest reader s
        ({ started with pids := pid :: started.pids }, s)

/-! ### The end -/

/-- Waits for the processes in turn. The last one's status counts, after `status`. -/
def awaitAll : List Pid → Nat → σ → Except Fault Nat × σ
  | [], status, s => (.ok status, s)
  | pid :: pids, _, s =>
    match h.await pid s with
    | (.error e, s) => (.error e, s)
    | (.ok ending, s) => awaitAll pids ending.status s

end Launch

/-- What came of a pipeline. -/
inductive Launched where
  | foreground (status : Nat)
  | background (job : Nat) (pid : Pid)
  deriving DecidableEq, Repr, Inhabited

/-- Runs a pipeline in a directory. In the background it becomes a job, and so does what had
started when a later stage failed to. -/
def Pipeline.execute {σ : Type} (h : Host σ) (p : Pipeline) (env : Environment) (cwd : String)
    (cmdline : String) (jobs : JobTable) (s : σ) : (Except LaunchFault Launched × JobTable) × σ :=
  match Launch.prepareAll h env cwd p.planned s with
  | (.error e, s) => ((.error e, jobs), s)
  | (.ok stages, s) =>
    match Launch.start h env stages none s with
    | (⟨pids, some e⟩, s) =>
      ((.error e, if pids.isEmpty then jobs else jobs.add pids cmdline), s)
    | (⟨pids, none⟩, s) =>
      if p.background then
        ((.ok (.background jobs.nextId (pids.getLast?.getD 0)), jobs.add pids cmdline), s)
      else
        match Launch.awaitAll h pids 0 s with
        | (.error e, s) => ((.error (.wait e), jobs), s)
        | (.ok status, s) => ((.ok (.foreground status), jobs), s)

end AssistedShell
