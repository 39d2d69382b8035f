import AssistedShell.Pipeline.Launch
import AssistedShell.Proofs.Host.Recording

/-! The record of a pipeline: what its stages, its start and the wait for its end
ask of the system, whatever the system answers. Each relation follows the
function of its name, and the calls that the function makes are among those that
it allows. -/

namespace AssistedShell

namespace Launch

/-- The calls that close descriptors in turn. -/
def closes (ds : List Descriptor) : List Call := ds.map .close

/-! ### Before the start -/

/-- The calls for what a stage is to read. -/
inductive OpensStdin (cwd : String) :
    StdinPlan → List Call → Except LaunchFault (Option Descriptor) → Prop where
  | inherit : OpensStdin cwd .inherit [] (.ok none)
  | pipe : OpensStdin cwd .pipe [] (.ok none)
  | file (path d) :
      OpensStdin cwd (.file path) [.openInput (joinPath cwd path) (.ok d)] (.ok (some d))
  | noFile (path e) :
      OpensStdin cwd (.file path) [.openInput (joinPath cwd path) (.error e)]
        (.error (.redirect path e))
  | text (text d) : OpensStdin cwd (.hereDoc text) [.stageText text (.ok d)] (.ok (some d))
  | noText (text e) : OpensStdin cwd (.hereDoc text) [.stageText text (.error e)] (.error (.hereDoc e))

/-- The calls for what a stage is to write. -/
inductive OpensStdout (cwd : String) :
    StdoutPlan → List Call → Except LaunchFault (Option Descriptor) → Prop where
  | inherit : OpensStdout cwd .inherit [] (.ok none)
  | pipe : OpensStdout cwd .pipe [] (.ok none)
  | file (t : OutputTarget) (d) :
      OpensStdout cwd (.file t) [.openOutput (joinPath cwd t.path) t.append (.ok d)] (.ok (some d))
  | noFile (t : OutputTarget) (e) :
      OpensStdout cwd (.file t) [.openOutput (joinPath cwd t.path) t.append (.error e)]
        (.error (.redirect t.path e))

variable {σ : Type} (h : Host σ) (env : Environment) (cwd : String)

/-- The calls that make a stage ready. -/
inductive Prepares (stage : Stage) (plan : StagePlan) :
    List Call → Except LaunchFault Prepared → Prop where
  | noStdin {ins f} : OpensStdin cwd plan.stdin ins (.error f) → Prepares stage plan ins (.error f)
  | noStdout {ins stdin outs f} : OpensStdin cwd plan.stdin ins (.ok stdin) →
      OpensStdout cwd plan.stdout outs (.error f) →
      Prepares stage plan (ins ++ outs ++ closes stdin.toList) (.error f)
  | noImage {ins stdin outs stdout s f} : OpensStdin cwd plan.stdin ins (.ok stdin) →
      OpensStdout cwd plan.stdout outs (.ok stdout) → image h env cwd stage s = .error f →
      Prepares stage plan (ins ++ outs ++ closes (stdin.toList ++ stdout.toList)) (.error f)
  | ready {ins stdin outs stdout s image} : OpensStdin cwd plan.stdin ins (.ok stdin) →
      OpensStdout cwd plan.stdout outs (.ok stdout) → Launch.image h env cwd stage s = .ok image →
      Prepares stage plan (ins ++ outs) (.ok ⟨image, stdin, stdout⟩)

/-- The calls that make all stages ready, or none. -/
inductive PreparesAll :
    List (Stage × StagePlan) → List Call → Except LaunchFault (List Prepared) → Prop where
  | nil : PreparesAll [] [] (.ok [])
  | fault {stage plan rest calls f} : Prepares h env cwd stage plan calls (.error f) →
      PreparesAll ((stage, plan) :: rest) calls (.error f)
  | abandoned {stage plan rest calls p more f} : Prepares h env cwd stage plan calls (.ok p) →
      PreparesAll rest more (.error f) →
      PreparesAll ((stage, plan) :: rest) (calls ++ more ++ closes p.descriptors) (.error f)
  | cons {stage plan rest calls p more ps} : Prepares h env cwd stage plan calls (.ok p) →
      PreparesAll rest more (.ok ps) →
      PreparesAll ((stage, plan) :: rest) (calls ++ more) (.ok (p :: ps))

/-! ### The start -/

/-- The calls for the pipe behind a stage. -/
inductive Pipes : List Prepared → List Call → Option (Descriptor × Descriptor) → Prop where
  | last : Pipes [] [] none
  | next (q rest r w) : Pipes (q :: rest) [.makePipe (.ok (r, w))] (some (r, w))

/-- The process of a stage that reads from a pipe's end, if there is one, and writes to one. -/
def childOf (p : Prepared) (previous : Option Descriptor)
    (pipe : Option (Descriptor × Descriptor)) : Child :=
  ⟨p.image, previous <|> p.stdin, pipe.map (·.2) <|> p.stdout⟩

/-- What the shell gave to a stage and needs no longer. -/
def handedOver (p : Prepared) (previous : Option Descriptor)
    (pipe : Option (Descriptor × Descriptor)) : List Descriptor :=
  p.descriptors ++ (pipe.map (·.2)).toList ++ previous.toList

/-- The calls that start stages, of which the first reads from a pipe's end, if there is one. -/
inductive Starts : List Prepared → Option Descriptor → List Call → Started → Prop where
  | done (previous) : Starts [] previous (closes previous.toList) ⟨[], none⟩
  | noPipe (p q rest previous e) :
      Starts (p :: q :: rest) previous
        (.makePipe (.error e) :: closes (waiting previous (p :: q :: rest))) ⟨[], some (.pipe e)⟩
  | noFork {p rest previous piped pipe} (e) : Pipes rest piped pipe →
      Starts (p :: rest) previous
        (piped ++ .spawn env (childOf p previous pipe) (.error e) ::
          closes ((pipe.map (·.1)).toList ++ (pipe.map (·.2)).toList ++ waiting previous (p :: rest)))
        ⟨[], some (.spawn e)⟩
  | forked {p rest previous piped pipe calls started} (pid) : Pipes rest piped pipe →
      Starts rest (pipe.map (·.1)) calls started →
      Starts (p :: rest) previous
        (piped ++ .spawn env (childOf p previous pipe) (.ok pid) ::
          (closes (handedOver p previous pipe) ++ calls))
        { started with pids := pid :: started.pids }

/-! ### The end -/

/-- The calls that wait for processes in turn, after a status. -/
inductive Awaits : List Pid → Nat → List Call → Except Fault Nat → Prop where
  | done (status) : Awaits [] status [] (.ok status)
  | fault (pid pids status e) : Awaits (pid :: pids) status [.await pid (.error e)] (.error e)
  | next {pids calls result} (pid status) (ending : Ending) :
      Awaits pids ending.status calls result →
      Awaits (pid :: pids) status (.await pid (.ok ending) :: calls) result

/-! ### Idle calls -/

/-- Whether a call neither starts a process nor waits for one. -/
def isIdle : Call → Bool
  | .spawn .. | .await .. => false
  | _ => true

/-- Whether no call starts a process or waits for one. -/
def Idle (calls : List Call) : Prop := ∀ c ∈ calls, isIdle c = true

theorem Idle.append {cs ds : List Call} (hc : Idle cs) (hd : Idle ds) : Idle (cs ++ ds) := by
  intro c hm
  rcases List.mem_append.mp hm with hm | hm
  · exact hc c hm
  · exact hd c hm

theorem idle_closes (ds : List Descriptor) : Idle (closes ds) := by
  intro c hm
  obtain ⟨d, -, rfl⟩ := List.mem_map.mp hm
  rfl

theorem OpensStdin.idle {plan : StdinPlan} {calls : List Call}
    {result : Except LaunchFault (Option Descriptor)} (ho : OpensStdin cwd plan calls result) :
    Idle calls := by
  cases ho <;> simp [Idle, isIdle]

theorem OpensStdout.idle {plan : StdoutPlan} {calls : List Call}
    {result : Except LaunchFault (Option Descriptor)} (ho : OpensStdout cwd plan calls result) :
    Idle calls := by
  cases ho <;> simp [Idle, isIdle]

theorem Pipes.idle {rest : List Prepared} {calls : List Call}
    {pipe : Option (Descriptor × Descriptor)} (hp : Pipes rest calls pipe) : Idle calls := by
  cases hp <;> simp [Idle, isIdle]

section
variable {h env cwd}

theorem Prepares.idle {stage : Stage} {plan : StagePlan} {calls : List Call}
    {result : Except LaunchFault Prepared} (hp : Prepares h env cwd stage plan calls result) :
    Idle calls := by
  cases hp with
  | noStdin hi => exact hi.idle
  | noStdout hi ho => exact (hi.idle.append ho.idle).append (idle_closes _)
  | noImage hi ho => exact (hi.idle.append ho.idle).append (idle_closes _)
  | ready hi ho => exact hi.idle.append ho.idle

/-- Nothing starts while stages are made ready. -/
theorem PreparesAll.idle {stages : List (Stage × StagePlan)} {calls : List Call}
    {result : Except LaunchFault (List Prepared)} (hp : PreparesAll h env cwd stages calls result) :
    Idle calls := by
  induction hp with
  | nil => exact fun c hm => nomatch hm
  | fault hp => exact hp.idle
  | abandoned hp _ ih => exact (hp.idle.append ih).append (idle_closes _)
  | cons hp _ ih => exact hp.idle.append ih

end

/-! ### The faults -/

/-- What keeps stages from being made ready. -/
def isEarly : LaunchFault → Bool
  | .redirect .. | .hereDoc _ | .nul _ => true
  | _ => false

/-- What keeps stages that are ready from being started. -/
def isMidway : LaunchFault → Bool
  | .pipe _ | .spawn _ => true
  | _ => false

section
variable {h env cwd}

theorem OpensStdin.isEarly {plan : StdinPlan} {calls : List Call} {f : LaunchFault}
    (ho : OpensStdin cwd plan calls (.error f)) : Launch.isEarly f = true := by
  cases ho <;> rfl

theorem OpensStdout.isEarly {plan : StdoutPlan} {calls : List Call} {f : LaunchFault}
    (ho : OpensStdout cwd plan calls (.error f)) : Launch.isEarly f = true := by
  cases ho
  rfl

theorem image_fault {stage : Stage} {s : σ} {f : LaunchFault}
    (hi : image h env cwd stage s = .error f) : f = .nul stage.name := by
  rw [image] at hi
  split at hi
  · cases hi
  · cases hi
  · split at hi
    · cases hi
      rfl
    · cases hi

theorem PreparesAll.isEarly {stages : List (Stage × StagePlan)} {calls : List Call}
    {f : LaunchFault} (hp : PreparesAll h env cwd stages calls (.error f)) :
    Launch.isEarly f = true := by
  generalize hr : Except.error f = result at hp
  induction hp with
  | nil => cases hr
  | cons => cases hr
  | abandoned _ _ ih => exact ih hr
  | fault hp =>
    cases hr
    cases hp with
    | noStdin hi => exact hi.isEarly
    | noStdout _ ho => exact ho.isEarly
    | noImage _ _ hf =>
      rw [image_fault hf]
      rfl

theorem Starts.isMidway {stages : List Prepared} {previous : Option Descriptor} {calls : List Call}
    {started : Started} (hs : Starts env stages previous calls started) {f : LaunchFault}
    (hf : started.fault = some f) : Launch.isMidway f = true := by
  induction hs with
  | done => cases hf
  | noPipe =>
    cases hf
    rfl
  | noFork =>
    cases hf
    rfl
  | forked _ _ _ ih => exact ih hf

end

/-! ### The functions make these calls -/

section
variable {h env cwd} {s s' : σ} (log : List Call)

theorem closeAll_recorded (ds : List Descriptor) (s : σ) (log : List Call) :
    closeAll h.recorded ds ⟨s, log⟩ = ⟨closeAll h ds s, log ++ closes ds⟩ := by
  induction ds generalizing s log with
  | nil => simp [closeAll, closes]
  | cons d ds ih =>
    have hd : h.recorded.close d ⟨s, log⟩ = ⟨h.close d s, log ++ [.close d]⟩ := rfl
    rw [closeAll, closeAll, hd, ih, List.append_assoc]
    rfl

theorem openStdin_recorded {plan : StdinPlan} {result : Except LaunchFault (Option Descriptor)}
    (ho : openStdin h cwd plan s = (result, s')) :
    ∃ calls, OpensStdin cwd plan calls result ∧
      openStdin h.recorded cwd plan ⟨s, log⟩ = (result, ⟨s', log ++ calls⟩) := by
  cases plan with
  | inherit =>
    obtain ⟨rfl, rfl⟩ := Prod.mk.inj ho
    exact ⟨[], .inherit, by simp [openStdin]⟩
  | pipe =>
    obtain ⟨rfl, rfl⟩ := Prod.mk.inj ho
    exact ⟨[], .pipe, by simp [openStdin]⟩
  | file path =>
    rw [openStdin] at ho ⊢
    rcases hf : h.openInput (joinPath cwd path) s with ⟨e | d, s₁⟩
    all_goals
      rw [hf] at ho
      rw [Host.openInput_recorded log hf]
      obtain ⟨rfl, rfl⟩ := Prod.mk.inj ho
    · exact ⟨_, .noFile path e, rfl⟩
    · exact ⟨_, .file path d, rfl⟩
  | hereDoc text =>
    rw [openStdin] at ho ⊢
    rcases hf : h.stageText text s with ⟨e | d, s₁⟩
    all_goals
      rw [hf] at ho
      rw [Host.stageText_recorded log hf]
      obtain ⟨rfl, rfl⟩ := Prod.mk.inj ho
    · exact ⟨_, .noText text e, rfl⟩
    · exact ⟨_, .text text d, rfl⟩

theorem openStdout_recorded {plan : StdoutPlan} {result : Except LaunchFault (Option Descriptor)}
    (ho : openStdout h cwd plan s = (result, s')) :
    ∃ calls, OpensStdout cwd plan calls result ∧
      openStdout h.recorded cwd plan ⟨s, log⟩ = (result, ⟨s', log ++ calls⟩) := by
  cases plan with
  | inherit =>
    obtain ⟨rfl, rfl⟩ := Prod.mk.inj ho
    exact ⟨[], .inherit, by simp [openStdout]⟩
  | pipe =>
    obtain ⟨rfl, rfl⟩ := Prod.mk.inj ho
    exact ⟨[], .pipe, by simp [openStdout]⟩
  | file t =>
    rw [openStdout] at ho ⊢
    rcases hf : h.openOutput (joinPath cwd t.path) t.append s with ⟨e | d, s₁⟩
    all_goals
      rw [hf] at ho
      rw [Host.openOutput_recorded log hf]
      obtain ⟨rfl, rfl⟩ := Prod.mk.inj ho
    · exact ⟨_, .noFile t e, rfl⟩
    · exact ⟨_, .file t d, rfl⟩

theorem prepare_recorded {stage : Stage} {plan : StagePlan} {result : Except LaunchFault Prepared}
    (hp : prepare h env cwd stage plan s = (result, s')) :
    ∃ calls, Prepares h env cwd stage plan calls result ∧
      prepare h.recorded env cwd stage plan ⟨s, log⟩ = (result, ⟨s', log ++ calls⟩) := by
  rw [prepare] at hp ⊢
  rcases hi : openStdin h cwd plan.stdin s with ⟨f | stdin, s₁⟩
  all_goals
    obtain ⟨ins, hin, hir⟩ := openStdin_recorded log hi
    rw [hi] at hp
    rw [hir]
    dsimp only at hp ⊢
  · obtain ⟨rfl, rfl⟩ := Prod.mk.inj hp
    exact ⟨ins, .noStdin hin, rfl⟩
  rcases ho : openStdout h cwd plan.stdout s₁ with ⟨f | stdout, s₂⟩
  all_goals
    obtain ⟨outs, hout, hor⟩ := openStdout_recorded (log ++ ins) ho
    rw [ho] at hp
    rw [hor]
    dsimp only at hp ⊢
  · obtain ⟨rfl, rfl⟩ := Prod.mk.inj hp
    exact ⟨_, .noStdout hin hout, by simp only [closeAll_recorded, List.append_assoc]⟩
  have him : image h.recorded env cwd stage ⟨s₂, log ++ ins ++ outs⟩ = image h env cwd stage s₂ := rfl
  rw [him]
  rcases hf : image h env cwd stage s₂ with f | image
  all_goals
    rw [hf] at hp
    obtain ⟨rfl, rfl⟩ := Prod.mk.inj hp
  · exact ⟨_, .noImage hin hout hf, by simp only [closeAll_recorded, List.append_assoc]⟩
  · exact ⟨_, .ready hin hout hf, by simp only [List.append_assoc]⟩

theorem prepareAll_recorded {stages : List (Stage × StagePlan)}
    {result : Except LaunchFault (List Prepared)} (hp : prepareAll h env cwd stages s = (result, s')) :
    ∃ calls, PreparesAll h env cwd stages calls result ∧
      prepareAll h.recorded env cwd stages ⟨s, log⟩ = (result, ⟨s', log ++ calls⟩) := by
  induction stages generalizing s s' log result with
  | nil =>
    obtain ⟨rfl, rfl⟩ := Prod.mk.inj hp
    exact ⟨[], .nil, by simp [prepareAll]⟩
  | cons head rest ih =>
    obtain ⟨stage, plan⟩ := head
    rw [prepareAll] at hp ⊢
    rcases h₁ : prepare h env cwd stage plan s with ⟨f | p, s₁⟩
    all_goals
      obtain ⟨calls, hc, hr⟩ := prepare_recorded log h₁
      rw [h₁] at hp
      rw [hr]
      dsimp only at hp ⊢
    · obtain ⟨rfl, rfl⟩ := Prod.mk.inj hp
      exact ⟨calls, .fault hc, rfl⟩
    rcases h₂ : prepareAll h env cwd rest s₁ with ⟨f | ps, s₂⟩
    all_goals
      obtain ⟨more, hm, hr⟩ := ih (log ++ calls) h₂
      rw [h₂] at hp
      rw [hr]
      obtain ⟨rfl, rfl⟩ := Prod.mk.inj hp
    · exact ⟨_, .abandoned hc hm, by simp only [closeAll_recorded, List.append_assoc]⟩
    · exact ⟨_, .cons hc hm, by simp only [List.append_assoc]⟩

theorem pipeAfter_recorded {rest : List Prepared}
    {result : Except Fault (Option (Descriptor × Descriptor))} (hp : pipeAfter h rest s = (result, s')) :
    (∃ piped pipe, Pipes rest piped pipe ∧ result = .ok pipe ∧
        pipeAfter h.recorded rest ⟨s, log⟩ = (result, ⟨s', log ++ piped⟩)) ∨
      ∃ q more e, rest = q :: more ∧ result = .error e ∧
        pipeAfter h.recorded rest ⟨s, log⟩ = (result, ⟨s', log ++ [.makePipe (.error e)]⟩) := by
  cases rest with
  | nil =>
    obtain ⟨rfl, rfl⟩ := Prod.mk.inj hp
    exact .inl ⟨[], none, .last, rfl, by simp [pipeAfter]⟩
  | cons q more =>
    have hne : ¬ (q :: more).isEmpty = true := Bool.false_ne_true
    rw [pipeAfter, if_neg hne] at hp ⊢
    rcases hm : h.makePipe s with ⟨e | ⟨r, w⟩, s₁⟩
    all_goals
      rw [hm] at hp
      rw [Host.makePipe_recorded log hm]
      obtain ⟨rfl, rfl⟩ := Prod.mk.inj hp
    · exact .inr ⟨q, more, e, rfl, rfl, rfl⟩
    · exact .inl ⟨_, _, .next q more r w, rfl, rfl⟩

theorem start_recorded {stages : List Prepared} {previous : Option Descriptor} {started : Started}
    (hs : start h env stages previous s = (started, s')) :
    ∃ calls, Starts env stages previous calls started ∧
      start h.recorded env stages previous ⟨s, log⟩ = (started, ⟨s', log ++ calls⟩) := by
  induction stages generalizing previous s s' log started with
  | nil =>
    obtain ⟨rfl, rfl⟩ := Prod.mk.inj hs
    exact ⟨_, .done previous, by rw [start, closeAll_recorded]⟩
  | cons p rest ih =>
    rw [start] at hs ⊢
    rcases hp : pipeAfter h rest s with ⟨result, s₁⟩
    rw [hp] at hs
    obtain ⟨piped, pipe, hpipe, rfl, hr⟩ | ⟨q, more, e, rfl, rfl, hr⟩ := pipeAfter_recorded log hp
    all_goals
      rw [hr]
      dsimp only at hs ⊢
    · rcases hf : h.spawn env (childOf p previous pipe) s₁ with ⟨e | pid, s₂⟩
      all_goals
        have hc : (⟨p.image, previous <|> p.stdin, pipe.map (·.2) <|> p.stdout⟩ : Child) =
          childOf p previous pipe := rfl
        rw [hc, hf] at hs
        rw [hc, Host.spawn_recorded _ hf]
        dsimp only at hs ⊢
      · obtain ⟨rfl, rfl⟩ := Prod.mk.inj hs
        refine ⟨_, .noFork e hpipe, ?_⟩
        simp only [closeAll_recorded, List.append_assoc, List.singleton_append]
      · rw [closeAll_recorded]
        rcases hrest : start h env rest (pipe.map (·.1))
          (closeAll h (handedOver p previous pipe) s₂) with ⟨started', s₃⟩
        have hh : p.descriptors ++ (pipe.map (·.2)).toList ++ previous.toList =
          handedOver p previous pipe := rfl
        obtain ⟨calls, hst, hrr⟩ := ih (log ++ piped ++ [.spawn env (childOf p previous pipe) (.ok pid)] ++
          closes (handedOver p previous pipe)) hrest
        rw [hh, hrest] at hs
        rw [hh, hrr]
        obtain ⟨rfl, rfl⟩ := Prod.mk.inj hs
        refine ⟨_, .forked pid hpipe hst, ?_⟩
        simp only [List.append_assoc, List.cons_append, List.nil_append]
    · rw [closeAll_recorded]
      obtain ⟨rfl, rfl⟩ := Prod.mk.inj hs
      exact ⟨_, .noPipe p q more previous e, by simp only [List.append_assoc, List.singleton_append]⟩

theorem awaitAll_recorded {pids : List Pid} {status : Nat} {result : Except Fault Nat}
    (ha : awaitAll h pids status s = (result, s')) :
    ∃ calls, Awaits pids status calls result ∧
      awaitAll h.recorded pids status ⟨s, log⟩ = (result, ⟨s', log ++ calls⟩) := by
  induction pids generalizing status s s' log with
  | nil =>
    obtain ⟨rfl, rfl⟩ := Prod.mk.inj ha
    exact ⟨[], .done status, by simp [awaitAll]⟩
  | cons pid pids ih =>
    rw [awaitAll] at ha ⊢
    rcases hw : h.await pid s with ⟨e | ending, s₁⟩
    all_goals
      rw [hw] at ha
      rw [Host.await_recorded log hw]
      dsimp only at ha ⊢
    · obtain ⟨rfl, rfl⟩ := Prod.mk.inj ha
      exact ⟨_, .fault pid pids status e, rfl⟩
    · obtain ⟨calls, hc, hr⟩ := ih (log ++ [.await pid (.ok ending)]) ha
      exact ⟨_, .next pid status ending hc, by rw [hr, List.append_assoc, List.singleton_append]⟩

end

end Launch

namespace Pipeline

open Launch

/-- The calls of a pipeline that is run, what comes of it and the jobs then. -/
inductive Executes {σ : Type} (h : Host σ) (p : Pipeline) (env : Environment) (cwd cmdline : String)
    (jobs : JobTable) : List Call → Except LaunchFault Launched → JobTable → Prop where
  | unready {calls f} : PreparesAll h env cwd p.planned calls (.error f) →
      Executes h p env cwd cmdline jobs calls (.error f) jobs
  | unstarted {calls stages more pids f} : PreparesAll h env cwd p.planned calls (.ok stages) →
      Starts env stages none more ⟨pids, some f⟩ →
      Executes h p env cwd cmdline jobs (calls ++ more) (.error f)
        (if pids.isEmpty then jobs else jobs.add pids cmdline)
  | background {calls stages more pids} : p.background = true →
      PreparesAll h env cwd p.planned calls (.ok stages) →
      Starts env stages none more ⟨pids, none⟩ →
      Executes h p env cwd cmdline jobs (calls ++ more)
        (.ok (.background jobs.nextId (pids.getLast?.getD 0))) (jobs.add pids cmdline)
  | foreground {calls stages more pids waits result} : p.background = false →
      PreparesAll h env cwd p.planned calls (.ok stages) →
      Starts env stages none more ⟨pids, none⟩ → Awaits pids 0 waits result →
      Executes h p env cwd cmdline jobs (calls ++ more ++ waits)
        ((result.map .foreground).mapError .wait) jobs

/-- Running a pipeline makes these calls. -/
theorem execute_recorded {σ : Type} {h : Host σ} {p : Pipeline} {env : Environment}
    {cwd cmdline : String} {jobs : JobTable} {s s' : σ} {result : Except LaunchFault Launched}
    {jobs' : JobTable} (log : List Call)
    (he : p.execute h env cwd cmdline jobs s = ((result, jobs'), s')) :
    ∃ calls, Executes h p env cwd cmdline jobs calls result jobs' ∧
      p.execute h.recorded env cwd cmdline jobs ⟨s, log⟩ = ((result, jobs'), ⟨s', log ++ calls⟩) := by
  rw [execute] at he ⊢
  rcases hp : prepareAll h env cwd p.planned s with ⟨f | stages, s₁⟩
  all_goals
    obtain ⟨calls, hc, hr⟩ := prepareAll_recorded log hp
    rw [hp] at he
    rw [hr]
    dsimp only at he ⊢
  · obtain ⟨hq, rfl⟩ := Prod.mk.inj he
    obtain ⟨rfl, rfl⟩ := Prod.mk.inj hq
    exact ⟨calls, .unready hc, rfl⟩
  rcases hst : start h env stages none s₁ with ⟨⟨pids, fault | f⟩, s₂⟩
  all_goals
    obtain ⟨more, hm, hr⟩ := start_recorded (log ++ calls) hst
    rw [hst] at he
    rw [hr]
    dsimp only at he ⊢
  · by_cases hb : p.background = true
    · rw [if_pos hb] at he ⊢
      obtain ⟨hq, rfl⟩ := Prod.mk.inj he
      obtain ⟨rfl, rfl⟩ := Prod.mk.inj hq
      exact ⟨_, .background hb hc hm, by rw [List.append_assoc]⟩
    · rw [if_neg hb] at he ⊢
      rcases hw : awaitAll h pids 0 s₂ with ⟨e | status, s₃⟩
      all_goals
        obtain ⟨waits, ha, hr⟩ := awaitAll_recorded (log ++ calls ++ more) hw
        rw [hw] at he
        rw [hr]
        dsimp only at he ⊢
        obtain ⟨hq, rfl⟩ := Prod.mk.inj he
        obtain ⟨rfl, rfl⟩ := Prod.mk.inj hq
        refine ⟨_, .foreground (Bool.eq_false_iff.mpr hb) hc hm ha, ?_⟩
        simp only [List.append_assoc]
  · obtain ⟨hq, rfl⟩ := Prod.mk.inj he
    obtain ⟨rfl, rfl⟩ := Prod.mk.inj hq
    exact ⟨_, .unstarted hc hm, by rw [List.append_assoc]⟩

end Pipeline

end AssistedShell
