import AssistedShell.Proofs.Pipeline.Custody

/-! A pipeline stage by stage, with the states of the system that it goes through:
in which state the program of each stage is looked for, in which its process is
started, and how each wait ends. When all stages are ready, no pipe and no start
of a process fails and no wait does, this is all there is to a pipeline. -/

namespace AssistedShell

/-- The process that was waited for, with the answer. -/
def Call.awaited? : Call → Option (Pid × Except Fault Ending)
  | .await pid answer => some (pid, answer)
  | _ => none

namespace Launch

variable {σ : Type} (h : Host σ) (env : Environment) (cwd : String)

/-! ### Before the start -/

/-- The state in which the program of a stage is looked for: its files are open. -/
def sighted (plan : StagePlan) (s : σ) : σ :=
  (openStdout h cwd plan.stdout (openStdin h cwd plan.stdin s).2).2

/-- The states in which the programs of stages are looked for, one after another. -/
def sights : List (Stage × StagePlan) → σ → List σ
  | [], _ => []
  | (_, plan) :: rest, s => sighted h cwd plan s :: sights rest (sighted h cwd plan s)

/-- Where the name of a stage leads. -/
def lookup (stage : Stage) (s : σ) : Resolution :=
  Program.resolve (h.runnable s) (h.present s) env cwd (env.get? "PATH") stage.name

/-- What is to be run for a stage whose name leads somewhere or nowhere. -/
inductive Serves (stage : Stage) : Resolution → Image → Prop where
  | notFound (complaint) : Serves stage .notFound (.refusal complaint ExitCode.notFound)
  | notExecutable (complaint) :
      Serves stage .notExecutable (.refusal complaint ExitCode.notExecutable)
  | found (path complaint) : Serves stage (.found path) (.program path stage.words complaint)

section
variable {h env cwd} {s s' : σ}

theorem serves_of_image {stage : Stage} {image : Image}
    (hi : Launch.image h env cwd stage s = .ok image) :
    Serves stage (lookup h env cwd stage s) image := by
  rw [Launch.image] at hi
  rw [lookup]
  split at hi
  · rename_i hr
    rw [hr]
    cases hi
    exact .notFound _
  · rename_i hr
    rw [hr]
    cases hi
    exact .notExecutable _
  · rename_i path hr
    rw [hr]
    split at hi
    · cases hi
    · cases hi
      exact .found path _

theorem prepare_ok {stage : Stage} {plan : StagePlan} {p : Prepared}
    (hp : prepare h env cwd stage plan s = (.ok p, s')) :
    s' = sighted h cwd plan s ∧ image h env cwd stage s' = .ok p.image ∧
      (openStdin h cwd plan.stdin s).1 = .ok p.stdin ∧
      (openStdout h cwd plan.stdout (openStdin h cwd plan.stdin s).2).1 = .ok p.stdout := by
  rw [prepare] at hp
  rw [sighted]
  generalize openStdin h cwd plan.stdin s = x at hp ⊢
  rcases x with ⟨f | stdin, s₁⟩
  · cases hp
  dsimp only at hp ⊢
  generalize openStdout h cwd plan.stdout s₁ = x at hp ⊢
  rcases x with ⟨f | stdout, s₂⟩
  · cases hp
  dsimp only at hp ⊢
  rcases hi : image h env cwd stage s₂ with f | image
  · rw [hi] at hp
    cases hp
  · rw [hi] at hp
    cases hp
    exact ⟨rfl, hi, rfl, rfl⟩

/-- The stages that have been made ready are those that were to be, in their order. -/
theorem prepareAll_ok {stages : List (Stage × StagePlan)} {ps : List Prepared}
    (hp : prepareAll h env cwd stages s = (.ok ps, s')) :
    ps.length = stages.length ∧ ∀ (i : Nat) x, stages[i]? = some x →
      ∃ t p, (sights h cwd stages s)[i]? = some t ∧ ps[i]? = some p ∧
        Serves x.1 (lookup h env cwd x.1 t) p.image := by
  induction stages generalizing s ps with
  | nil =>
    obtain ⟨hp, -⟩ := Prod.mk.inj hp
    cases hp
    exact ⟨rfl, fun i x hx => by simp at hx⟩
  | cons x rest ih =>
    obtain ⟨stage, plan⟩ := x
    rw [prepareAll] at hp
    rcases h₁ : prepare h env cwd stage plan s with ⟨f | p, s₁⟩
    all_goals
      rw [h₁] at hp
      dsimp only at hp
    · cases hp
    rcases h₂ : prepareAll h env cwd rest s₁ with ⟨f | qs, s₂⟩
    all_goals
      rw [h₂] at hp
      cases hp
    obtain ⟨rfl, hi, -⟩ := prepare_ok h₁
    obtain ⟨hlen, hrest⟩ := ih h₂
    refine ⟨by simp [hlen], fun i x hx => ?_⟩
    cases i with
    | zero =>
      cases hx
      exact ⟨_, p, rfl, rfl, serves_of_image hi⟩
    | succ i => exact hrest i x hx

end

/-! ### The start -/

/-- A process that was started: the state of the system before, the process and its number. -/
structure Forked (σ : Type) where
  state : σ
  child : Child
  pid : Pid

/-- The processes that are started for stages, when nothing fails, and the state after them. -/
inductive Forks : List Prepared → Option Descriptor → σ → List (Forked σ) → σ → Prop where
  | done (previous s) : Forks [] previous s [] (closeAll h previous.toList s)
  | next {p rest previous s pipe s₁ pid s₂ forks s₃} : pipeAfter h rest s = (.ok pipe, s₁) →
      h.spawn env (childOf p previous pipe) s₁ = (.ok pid, s₂) →
      Forks rest (pipe.map (·.1)) (closeAll h (handedOver p previous pipe) s₂) forks s₃ →
      Forks (p :: rest) previous s (⟨s₁, childOf p previous pipe, pid⟩ :: forks) s₃

/-- The endings that the waits for processes are answered with, when none fails, and the state
after them. -/
inductive Waits : List Pid → σ → List Ending → σ → Prop where
  | done (s) : Waits [] s [] s
  | next {pid pids s ending s₁ endings s₂} : h.await pid s = (.ok ending, s₁) →
      Waits pids s₁ endings s₂ → Waits (pid :: pids) s (ending :: endings) s₂

/-- The status of the last of some endings; without one, it is `status`. -/
def lastStatus (endings : List Ending) (status : Nat) : Nat :=
  (endings.getLast?.map Ending.status).getD status

theorem childOf_mk (p : Prepared) (previous : Option Descriptor)
    (pipe : Option (Descriptor × Descriptor)) :
    ⟨p.image, previous <|> p.stdin, pipe.map (·.2) <|> p.stdout⟩ = childOf p previous pipe := rfl

theorem handedOver_mk (p : Prepared) (previous : Option Descriptor)
    (pipe : Option (Descriptor × Descriptor)) :
    p.descriptors ++ (pipe.map (·.2)).toList ++ previous.toList = handedOver p previous pipe := rfl

section
variable {h env} {s s' : σ}

theorem Forks.start_eq {stages : List Prepared} {previous : Option Descriptor}
    {forks : List (Forked σ)} (hf : Forks h env stages previous s forks s') :
    start h env stages previous s = (⟨forks.map Forked.pid, none⟩, s') := by
  induction hf with
  | done => rfl
  | @next p rest previous s pipe s₁ pid s₂ forks s₃ hp hs _ ih =>
    rw [start, hp]
    dsimp only
    rw [childOf_mk, hs]
    dsimp only
    rw [handedOver_mk, ih]
    rfl

theorem Forks.length_eq {stages : List Prepared} {previous : Option Descriptor}
    {forks : List (Forked σ)} (hf : Forks h env stages previous s forks s') :
    forks.length = stages.length := by
  induction hf with
  | done => rfl
  | next _ _ _ ih => rw [List.length_cons, List.length_cons, ih]

/-- Each process is that of its stage. -/
theorem Forks.image_eq {stages : List Prepared} {previous : Option Descriptor}
    {forks : List (Forked σ)} (hf : Forks h env stages previous s forks s') {i : Nat} {p : Prepared}
    (hi : stages[i]? = some p) : ∃ f, forks[i]? = some f ∧ f.child.image = p.image := by
  induction hf generalizing i with
  | done => simp at hi
  | next _ _ _ ih =>
    cases i with
    | zero =>
      cases hi
      exact ⟨_, rfl, rfl⟩
    | succ i => exact ih hi

theorem Forks.spawned {stages : List Prepared} {previous : Option Descriptor}
    {forks : List (Forked σ)} (hf : Forks h env stages previous s forks s') :
    ∀ f ∈ forks, (h.spawn env f.child f.state).1 = .ok f.pid := by
  induction hf with
  | done => exact fun f hm => nomatch hm
  | next _ hs _ ih => exact List.forall_mem_cons.mpr ⟨by rw [hs], ih⟩

theorem exists_forks {stages : List Prepared} {previous : Option Descriptor} {pids : List Pid}
    (hs : start h env stages previous s = (⟨pids, none⟩, s')) :
    ∃ forks, Forks h env stages previous s forks s' := by
  induction stages generalizing previous s pids with
  | nil =>
    obtain ⟨-, rfl⟩ := Prod.mk.inj hs
    exact ⟨[], .done previous s⟩
  | cons p rest ih =>
    rw [start] at hs
    rcases hp : pipeAfter h rest s with ⟨f | pipe, s₁⟩
    all_goals
      rw [hp] at hs
      dsimp only at hs
    · cases hs
    rw [childOf_mk] at hs
    rcases hf : h.spawn env (childOf p previous pipe) s₁ with ⟨f | pid, s₂⟩
    all_goals
      rw [hf] at hs
      dsimp only at hs
    · cases hs
    rw [handedOver_mk] at hs
    rcases hr : start h env rest (pipe.map (·.1)) (closeAll h (handedOver p previous pipe) s₂) with
      ⟨⟨pids', fault⟩, s₃⟩
    rw [hr] at hs
    cases hs
    obtain ⟨forks, hforks⟩ := ih hr
    exact ⟨_, .next hp hf hforks⟩

theorem lastStatus_cons (ending : Ending) (endings : List Ending) (status : Nat) :
    lastStatus (ending :: endings) status = lastStatus endings ending.status := by
  rw [lastStatus, List.getLast?_cons]
  cases h : endings.getLast? <;> simp [lastStatus, h]

theorem Waits.length_eq {pids : List Pid} {endings : List Ending}
    (hw : Waits h pids s endings s') : endings.length = pids.length := by
  induction hw with
  | done => rfl
  | next _ _ ih => rw [List.length_cons, List.length_cons, ih]

theorem exists_waits {pids : List Pid} {status : Nat} {t : Nat}
    (ha : awaitAll h pids status s = (.ok t, s')) : ∃ endings, Waits h pids s endings s' := by
  induction pids generalizing status s with
  | nil =>
    cases ha
    exact ⟨[], .done _⟩
  | cons pid pids ih =>
    rw [awaitAll] at ha
    rcases hw : h.await pid s with ⟨f | ending, s₁⟩
    all_goals
      rw [hw] at ha
      dsimp only at ha
    · cases ha
    · obtain ⟨endings, he⟩ := ih ha
      exact ⟨ending :: endings, .next hw he⟩

end

/-! ### Calls -/

/-- The waits among some calls. -/
def waits (calls : List Call) : List (Pid × Except Fault Ending) := calls.filterMap Call.awaited?

theorem waits_append (cs ds : List Call) : waits (cs ++ ds) = waits cs ++ waits ds :=
  List.filterMap_append

theorem Idle.waits_eq {calls : List Call} (hi : Idle calls) : waits calls = [] := by
  refine List.filterMap_eq_nil_iff.mpr fun c hm => ?_
  have hc := hi c hm
  cases c <;> first | rfl | cases hc

/-- Whether a pipe or a process could not be made, or a wait failed. -/
def fails : Call → Bool
  | .makePipe (.error _) | .spawn _ _ (.error _) | .await _ (.error _) => true
  | _ => false

section
variable {h env} {s s' : σ}

/-- A start that ends early has met with a failure. -/
theorem Starts.exists_failure {stages : List Prepared} {previous : Option Descriptor}
    {calls : List Call} {started : Started} (hs : Starts env stages previous calls started)
    {f : LaunchFault} (hf : started.fault = some f) : ∃ c ∈ calls, fails c = true := by
  induction hs with
  | done => cases hf
  | noPipe p q rest previous e => exact ⟨_, List.mem_cons_self, rfl⟩
  | noFork e hp => exact ⟨_, List.mem_append_right _ List.mem_cons_self, rfl⟩
  | forked pid hp _ ih =>
    obtain ⟨c, hm, hc⟩ := ih hf
    exact ⟨c, by simp [hm], hc⟩

/-- The shell waits for nothing while it starts stages. -/
theorem Starts.waits_eq {stages : List Prepared} {previous : Option Descriptor}
    {calls : List Call} {started : Started} (hs : Starts env stages previous calls started) :
    waits calls = [] := by
  induction hs with
  | done => exact (idle_closes _).waits_eq
  | noPipe => exact (idle_closes _).waits_eq
  | noFork e hp =>
    rw [waits_append, hp.idle.waits_eq]
    exact (idle_closes _).waits_eq
  | @forked p rest previous piped pipe calls started pid hp _ ih =>
    have hc : waits (closes (handedOver p previous pipe) ++ calls) = [] := by
      rw [waits_append, (idle_closes _).waits_eq, ih, List.append_nil]
    rw [waits_append, hp.idle.waits_eq]
    exact hc

theorem Waits.recorded_eq {pids : List Pid} {endings : List Ending}
    (hw : Waits h pids s endings s') (status : Nat) (log : List Call) :
    ∃ calls, awaitAll h.recorded pids status ⟨s, log⟩ =
        (.ok (lastStatus endings status), ⟨s', log ++ calls⟩) ∧
      children calls = [] ∧ waits calls = pids.zip (endings.map .ok) := by
  induction hw generalizing status log with
  | done s => exact ⟨[], by simp [awaitAll, lastStatus], rfl, rfl⟩
  | @next pid pids s ending s₁ endings s₂ ha hw ih =>
    obtain ⟨calls, hr, hc, hs⟩ := ih ending.status (log ++ [.await pid (.ok ending)])
    have hz : waits (.await pid (.ok ending) :: calls) = (pid, .ok ending) :: waits calls := rfl
    refine ⟨.await pid (.ok ending) :: calls, ?_, hc, by rw [hz, hs]; rfl⟩
    rw [awaitAll, Host.await_recorded log ha]
    dsimp only
    rw [hr, List.append_assoc, lastStatus_cons]
    rfl

end

end Launch

namespace Pipeline

open Launch

/-- What a pipeline comes to whose stages are ready when nothing fails: every stage has a process.
In the foreground each is waited for once and the status is that of the last one. In the background
none is waited for, and all are one new job. -/
structure Concludes {σ : Type} (h : Host σ) (p : Pipeline) (env : Environment)
    (cwd cmdline : String) (jobs : JobTable) (s : σ) (forks : List (Forked σ)) (told : List Ending)
    (log : List Call) (result : Except LaunchFault Launched) (jobs' : JobTable) : Prop where
  started : children log = forks.map Forked.pid
  count : forks.length = p.stages.length
  stages : ∀ (i : Nat) stage, p.stages[i]? = some stage → ∃ sight f,
    (sights h cwd p.planned s)[i]? = some sight ∧ forks[i]? = some f ∧
      Serves stage (lookup h env cwd stage sight) f.child.image ∧
        (h.spawn env f.child f.state).1 = .ok f.pid
  foreground : p.background = false → told.length = p.stages.length ∧
    waits log = (forks.map Forked.pid).zip (told.map .ok) ∧ jobs' = jobs ∧
    ∃ last, told.getLast? = some last ∧ result = .ok (.foreground last.status)
  background : p.background = true → waits log = [] ∧
    jobs'.jobs = jobs.jobs ++ [jobs.entry (forks.map Forked.pid) cmdline] ∧
    ∃ last, forks.getLast? = some last ∧ result = .ok (.background jobs.nextId last.pid)

section
variable {σ : Type} {h : Host σ} {p : Pipeline} {env : Environment} {cwd : String} {s s₁ s₂ s₃ : σ}
  {stages : List Prepared} {forks : List (Forked σ)} {endings : List Ending}

theorem started_recorded (hp : prepareAll h env cwd p.planned s = (.ok stages, s₁))
    (hf : Forks h env stages none s₁ forks s₂) :
    ∃ before log, prepareAll h.recorded env cwd p.planned ⟨s, []⟩ = (.ok stages, ⟨s₁, before⟩) ∧
      start h.recorded env stages none ⟨s₁, before⟩ = (⟨forks.map Forked.pid, none⟩, ⟨s₂, log⟩) ∧
      children log = forks.map Forked.pid ∧ waits log = [] := by
  obtain ⟨before, hc, hr⟩ := prepareAll_recorded [] hp
  obtain ⟨calls, hs, hr'⟩ := start_recorded before hf.start_eq
  refine ⟨before, before ++ calls, hr, hr', ?_, ?_⟩
  · rw [children_append, hc.idle.children_eq, hs.children_eq.1, List.nil_append]
  · rw [waits_append, hc.idle.waits_eq, hs.waits_eq, List.nil_append]

/-- A pipeline in the foreground waits once for each of its processes, and the status of the last
one is its own. -/
theorem execute_foreground (hb : p.background = false)
    (hp : prepareAll h env cwd p.planned s = (.ok stages, s₁))
    (hf : Forks h env stages none s₁ forks s₂)
    (hw : Waits h (forks.map Forked.pid) s₂ endings s₃) (cmdline : String) (jobs : JobTable) :
    ∃ log, p.execute h.recorded env cwd cmdline jobs ⟨s, []⟩ =
        ((.ok (.foreground (lastStatus endings 0)), jobs), ⟨s₃, log⟩) ∧
      children log = forks.map Forked.pid ∧
      waits log = (forks.map Forked.pid).zip (endings.map .ok) := by
  obtain ⟨before, log, hr, hs, hc, hn⟩ := started_recorded hp hf
  obtain ⟨calls, ha, hc', hn'⟩ := hw.recorded_eq 0 log
  refine ⟨log ++ calls, ?_, by rw [children_append, hc, hc', List.append_nil],
    by rw [waits_append, hn, hn', List.nil_append]⟩
  rw [execute, hr]
  dsimp only
  rw [hs]
  dsimp only
  rw [if_neg (by simp [hb]), ha]

/-- A pipeline in the foreground for which a wait fails has asked for it. -/
theorem exists_failed_wait (hb : p.background = false)
    (hp : prepareAll h env cwd p.planned s = (.ok stages, s₁))
    (hf : Forks h env stages none s₁ forks s₂) {fault : Fault}
    (ha : awaitAll h (forks.map Forked.pid) 0 s₂ = (.error fault, s₃)) (cmdline : String)
    (jobs : JobTable) :
    ∃ pid, .await pid (.error fault) ∈
      (p.execute h.recorded env cwd cmdline jobs ⟨s, []⟩).2.log := by
  obtain ⟨before, log, hr, hs, -, -⟩ := started_recorded hp hf
  obtain ⟨calls, hc, ha⟩ := awaitAll_recorded log ha
  obtain ⟨-, lost, -, -, he⟩ := hc.collected_eq
  obtain ⟨pid, rest, -, hm⟩ := he fault rfl
  refine ⟨pid, ?_⟩
  rw [execute, hr]
  dsimp only
  rw [hs]
  dsimp only
  rw [if_neg (by simp [hb]), ha]
  exact List.mem_append_right _ hm

/-- A pipeline in the background waits for nothing and becomes a job of all its processes. -/
theorem execute_background (hb : p.background = true)
    (hp : prepareAll h env cwd p.planned s = (.ok stages, s₁))
    (hf : Forks h env stages none s₁ forks s₂) (cmdline : String) (jobs : JobTable) :
    ∃ log, p.execute h.recorded env cwd cmdline jobs ⟨s, []⟩ =
        ((.ok (.background jobs.nextId ((forks.map Forked.pid).getLast?.getD 0)),
          jobs.add (forks.map Forked.pid) cmdline), ⟨s₂, log⟩) ∧
      children log = forks.map Forked.pid ∧ waits log = [] := by
  obtain ⟨before, log, hr, hs, hc, hn⟩ := started_recorded hp hf
  refine ⟨log, ?_, hc, hn⟩
  rw [execute, hr]
  dsimp only
  rw [hs]
  dsimp only
  rw [if_pos hb]

/-- Each stage that was ready has the process that its name led to. -/
theorem exists_fork (hp : prepareAll h env cwd p.planned s = (.ok stages, s₁))
    (hf : Forks h env stages none s₁ forks s₂) :
    forks.length = p.stages.length ∧ ∀ (i : Nat) stage, p.stages[i]? = some stage → ∃ sight f,
      (sights h cwd p.planned s)[i]? = some sight ∧ forks[i]? = some f ∧
        Serves stage (lookup h env cwd stage sight) f.child.image ∧
          (h.spawn env f.child f.state).1 = .ok f.pid := by
  obtain ⟨hlen, hserves⟩ := prepareAll_ok hp
  refine ⟨by rw [hf.length_eq, hlen, planned, List.length_mapIdx], fun i stage hi => ?_⟩
  have hx : p.planned[i]? = some (stage, stage.plan i p.stages.length) := by
    rw [planned, List.getElem?_mapIdx, hi]
    rfl
  obtain ⟨sight, q, hsight, hq, hserve⟩ := hserves i _ hx
  obtain ⟨f, hfi, himage⟩ := hf.image_eq hq
  exact ⟨sight, f, hsight, hfi, himage ▸ hserve, hf.spawned f (List.mem_of_getElem? hfi)⟩

/-- A pipeline of which all stages have started concludes, if the waits for them succeed. -/
theorem concludes_of_forks (hn : p.stages ≠ [])
    (hp : prepareAll h env cwd p.planned s = (.ok stages, s₁))
    (hf : Forks h env stages none s₁ forks s₂)
    (hw : p.background = false → Waits h (forks.map Forked.pid) s₂ endings s₃) (cmdline : String)
    (jobs : JobTable) : ∃ log result jobs' s',
      p.execute h.recorded env cwd cmdline jobs ⟨s, []⟩ = ((result, jobs'), ⟨s', log⟩) ∧
        Concludes h p env cwd cmdline jobs s forks endings log result jobs' := by
  obtain ⟨hlen, hstages⟩ := exists_fork hp hf
  have hpos : 0 < p.stages.length := List.length_pos_iff.mpr hn
  cases hb : p.background with
  | true =>
    obtain ⟨log, hr, hc, hnone⟩ := execute_background hb hp hf cmdline jobs
    obtain ⟨last, hlast⟩ : ∃ last, forks.getLast? = some last :=
      ⟨_, List.getLast?_eq_some_getLast (List.length_pos_iff.mp (by omega))⟩
    refine ⟨log, _, _, _, hr, hc, hlen, hstages, by simp [hb],
      fun _ => ⟨hnone, rfl, last, hlast, ?_⟩⟩
    simp [List.getLast?_map, hlast]
  | false =>
    have hw := hw hb
    obtain ⟨log, hr, hc, hwaited⟩ := execute_foreground hb hp hf hw cmdline jobs
    have htold : endings.length = p.stages.length := by
      rw [hw.length_eq, List.length_map, hlen]
    obtain ⟨last, hlast⟩ : ∃ last, endings.getLast? = some last :=
      ⟨_, List.getLast?_eq_some_getLast (List.length_pos_iff.mp (by omega))⟩
    refine ⟨log, _, _, _, hr, hc, hlen, hstages,
      fun _ => ⟨htold, hwaited, rfl, last, hlast, ?_⟩, by simp [hb]⟩
    rw [lastStatus, hlast]
    rfl

/-- On any system a pipeline concludes whose stages are ready, if no pipe, no start of a process and
no wait fails. -/
theorem execute_concludes (hn : p.stages ≠ [])
    (hready : (prepareAll h env cwd p.planned s).1 = .ok stages) (cmdline : String)
    (jobs : JobTable)
    (hok : ∀ c ∈ (p.execute h.recorded env cwd cmdline jobs ⟨s, []⟩).2.log, fails c = false) :
    ∃ forks told, Concludes h p env cwd cmdline jobs s forks told
      (p.execute h.recorded env cwd cmdline jobs ⟨s, []⟩).2.log
      (p.execute h.recorded env cwd cmdline jobs ⟨s, []⟩).1.1
      (p.execute h.recorded env cwd cmdline jobs ⟨s, []⟩).1.2 := by
  rcases hp : prepareAll h env cwd p.planned s with ⟨_, s₁⟩
  rw [hp] at hready
  obtain rfl := hready
  rcases hs : start h env stages none s₁ with ⟨⟨pids, _ | f⟩, s₂⟩
  · obtain ⟨forks, hf⟩ := exists_forks hs
    obtain ⟨told, s₃, hw⟩ : ∃ told s₃, p.background = false →
        Waits h (forks.map Forked.pid) s₂ told s₃ := by
      cases hb : p.background with
      | true => exact ⟨[], s₂, nofun⟩
      | false =>
        rcases ha : awaitAll h (forks.map Forked.pid) 0 s₂ with ⟨f | status, s₃⟩
        · obtain ⟨pid, hm⟩ := exists_failed_wait hb hp hf ha cmdline jobs
          cases hok _ hm
        · obtain ⟨told, hw⟩ := exists_waits ha
          exact ⟨told, s₃, fun _ => hw⟩
    obtain ⟨log, result, jobs', s', hr, hc⟩ := concludes_of_forks hn hp hf hw cmdline jobs
    rw [hr]
    exact ⟨forks, told, hc⟩
  · -- The start does not end early without a call that failed.
    obtain ⟨before, -, hr⟩ := prepareAll_recorded [] hp
    obtain ⟨calls, hc, hr'⟩ := start_recorded ([] ++ before) hs
    obtain ⟨c, hm, hfails⟩ := hc.exists_failure rfl
    rw [execute, hr] at hok
    dsimp only at hok
    rw [hr'] at hok
    exact absurd (hok c (List.mem_append_right _ hm)) (by rw [hfails]; decide)

end

end Pipeline

end AssistedShell
