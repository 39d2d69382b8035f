import AssistedShell.Machine.Kernel
import AssistedShell.Proofs.Job.Run
import AssistedShell.Proofs.Pipeline.Record

/-! What becomes of the processes of a pipeline. Each that was started is waited
for, or it belongs to the job that the pipeline became, unless the wait for one
fails: that one and those after it are lost. -/

namespace AssistedShell

/-- The process that was started. -/
def Call.forked? : Call → Option Pid
  | .spawn _ _ (.ok pid) => some pid
  | _ => none

/-- The process that was waited for and has ended. -/
def Call.collected? : Call → Option Pid
  | .await pid (.ok _) => some pid
  | _ => none

namespace Launch

/-- The processes that were started, in order. -/
def children (calls : List Call) : List Pid := calls.filterMap Call.forked?

/-- The processes whose endings were waited for, in order. -/
def collected (calls : List Call) : List Pid := calls.filterMap Call.collected?

theorem children_append (cs ds : List Call) : children (cs ++ ds) = children cs ++ children ds :=
  List.filterMap_append

theorem collected_append (cs ds : List Call) : collected (cs ++ ds) = collected cs ++ collected ds :=
  List.filterMap_append

theorem Idle.children_eq {calls : List Call} (hi : Idle calls) : children calls = [] := by
  refine List.filterMap_eq_nil_iff.mpr fun c hm => ?_
  have hc := hi c hm
  cases c <;> first | rfl | cases hc

theorem Idle.collected_eq {calls : List Call} (hi : Idle calls) : collected calls = [] := by
  refine List.filterMap_eq_nil_iff.mpr fun c hm => ?_
  have hc := hi c hm
  cases c <;> first | rfl | cases hc

/-! ### The parts of a run -/

/-- The start knows the processes that it started. -/
theorem Starts.children_eq {env : Environment} {stages : List Prepared}
    {previous : Option Descriptor} {calls : List Call} {started : Started}
    (hs : Starts env stages previous calls started) :
    children calls = started.pids ∧ collected calls = [] := by
  induction hs with
  | done => exact ⟨(idle_closes _).children_eq, (idle_closes _).collected_eq⟩
  | noPipe => exact ⟨(idle_closes _).children_eq, (idle_closes _).collected_eq⟩
  | noFork e hp =>
    rw [children_append, collected_append, hp.idle.children_eq, hp.idle.collected_eq]
    exact ⟨(idle_closes _).children_eq, (idle_closes _).collected_eq⟩
  | @forked p rest previous piped pipe calls started pid hp _ ih =>
    have hi := idle_closes (handedOver p previous pipe)
    have hf : children (closes (handedOver p previous pipe) ++ calls) = started.pids := by
      rw [children_append, hi.children_eq, ih.1, List.nil_append]
    have hc : collected (closes (handedOver p previous pipe) ++ calls) = [] := by
      rw [collected_append, hi.collected_eq, ih.2, List.nil_append]
    rw [children_append, collected_append, hp.idle.children_eq, hp.idle.collected_eq]
    exact ⟨congrArg (pid :: ·) hf, hc⟩

/-- The wait collects the processes in turn, up to the first for which it fails. -/
theorem Awaits.collected_eq {pids : List Pid} {status : Nat} {calls : List Call}
    {result : Except Fault Nat} (ha : Awaits pids status calls result) :
    children calls = [] ∧ ∃ lost, pids = collected calls ++ lost ∧
      (lost = [] ↔ ∃ status, result = .ok status) ∧
      ∀ e, result = .error e → ∃ pid rest, lost = pid :: rest ∧ .await pid (.error e) ∈ calls := by
  induction ha with
  | done status => exact ⟨rfl, [], rfl, by simp, nofun⟩
  | fault pid pids status e =>
    refine ⟨rfl, pid :: pids, rfl, by simp, ?_⟩
    rintro _ ⟨⟩
    exact ⟨pid, pids, rfl, List.mem_singleton_self _⟩
  | next pid status ending _ ih =>
    obtain ⟨hf, lost, rfl, hl, he⟩ := ih
    refine ⟨hf, lost, rfl, hl, ?_⟩
    intro e hr
    obtain ⟨p, rest, rfl, hm⟩ := he e hr
    exact ⟨p, rest, rfl, List.mem_cons_of_mem _ hm⟩

end Launch

namespace Pipeline

open Launch

/-- What becomes of the processes that some calls started: some were waited for, some belong to
jobs that were added to a table, and some are lost. -/
structure Custody (calls : List Call) (result : Except LaunchFault Launched) (cmdline : String)
    (jobs jobs' : JobTable) (added : List Job) (lost : List Pid) : Prop where
  /-- At most one job is added, and only if no process was waited for. -/
  jobs : added = [] ∧ jobs' = jobs ∨
    collected calls = [] ∧ added = [jobs.entry (children calls) cmdline] ∧
      jobs' = jobs.add (children calls) cmdline
  /-- In the order of their start, each process is in one of the three lists. -/
  split : children calls = collected calls ++ added.flatMap Job.pids ++ lost
  /-- The lost ones are that for which the wait failed and those after it. -/
  lost : lost = [] ∧ (∀ e, result ≠ .error (.wait e)) ∨
    ∃ e pid rest, lost = pid :: rest ∧ result = .error (.wait e) ∧ .await pid (.error e) ∈ calls

section
variable {σ : Type} {h : Host σ} {p : Pipeline} {env : Environment} {cwd cmdline : String}
  {jobs jobs' : JobTable} {calls : List Call} {result : Except LaunchFault Launched}

theorem children_started {stages : List Prepared} {more : List Call} {started : Started}
    (hp : PreparesAll h env cwd p.planned calls (.ok stages))
    (hs : Starts env stages none more started) :
    children (calls ++ more) = started.pids ∧ collected (calls ++ more) = [] := by
  rw [children_append, collected_append, hp.idle.children_eq, hp.idle.collected_eq]
  exact hs.children_eq

/-- The processes that were started become a job. -/
theorem custody_added {pids : List Pid} (hc : children calls = pids ∧ collected calls = [])
    (hr : ∀ e, result ≠ .error (.wait e)) :
    Custody calls result cmdline jobs (jobs.add pids cmdline) [jobs.entry pids cmdline] [] := by
  obtain ⟨rfl, hw⟩ := hc
  exact ⟨.inr ⟨hw, rfl, rfl⟩, by simp [hw, JobTable.entry], .inl ⟨rfl, hr⟩⟩

/-- No process was started. -/
theorem custody_nil (hc : children calls = [] ∧ collected calls = [])
    (hr : ∀ e, result ≠ .error (.wait e)) : Custody calls result cmdline jobs jobs [] [] :=
  ⟨.inl ⟨rfl, rfl⟩, by rw [hc.1, hc.2]; rfl, .inl ⟨rfl, hr⟩⟩

theorem Executes.custody (he : Executes h p env cwd cmdline jobs calls result jobs') :
    ∃ added lost, Custody calls result cmdline jobs jobs' added lost := by
  cases he with
  | @unready calls f hp =>
    refine ⟨[], [], custody_nil ⟨hp.idle.children_eq, hp.idle.collected_eq⟩ ?_⟩
    rintro e ⟨⟩
    cases hp.isEarly
  | @unstarted calls stages more pids f hp hs =>
    have hf : ∀ e, (.error f : Except LaunchFault Launched) ≠ .error (.wait e) := by
      rintro e ⟨⟩
      cases hs.isMidway rfl
    cases pids with
    | nil => exact ⟨[], [], custody_nil (children_started hp hs) hf⟩
    | cons pid pids => exact ⟨_, [], custody_added (children_started hp hs) hf⟩
  | background _ hp hs => exact ⟨_, [], custody_added (children_started hp hs) nofun⟩
  | @foreground calls stages more pids waits result _ hp hs ha =>
    obtain ⟨hc, hw⟩ := children_started hp hs
    obtain ⟨hidle, lost, hpids, hl, he⟩ := ha.collected_eq
    refine ⟨[], lost, .inl ⟨rfl, rfl⟩, ?_, ?_⟩
    · rw [children_append, collected_append, hc, hw, hidle, List.append_nil, hpids]
      simp
    · rcases result with e | status
      · obtain ⟨pid, rest, rfl, hm⟩ := he e rfl
        exact .inr ⟨e, pid, rest, rfl, rfl, List.mem_append_right _ hm⟩
      · exact .inl ⟨hl.mpr ⟨status, rfl⟩, nofun⟩

/-- Every process that a pipeline started was waited for, or belongs to the one job that the
pipeline became, or is lost; it is lost only when the wait for it or for one before it failed. -/
theorem execute_custody (h : Host σ) (p : Pipeline) (env : Environment) (cwd cmdline : String)
    (jobs : JobTable) (s : σ) :
    ∃ added lost,
      Custody (p.execute h.recorded env cwd cmdline jobs ⟨s, []⟩).2.log
        (p.execute h.recorded env cwd cmdline jobs ⟨s, []⟩).1.1 cmdline jobs
        (p.execute h.recorded env cwd cmdline jobs ⟨s, []⟩).1.2 added lost := by
  obtain ⟨calls, he, hr⟩ := execute_recorded []
    (rfl : p.execute h env cwd cmdline jobs s = ((_, _), _))
  rw [hr, List.nil_append]
  exact he.custody

end

open Machine (Desk) in
/-- On a machine that forgets processes as they end the wait for the first of two stages fails.
Both have been started, and nobody knows of them any more. -/
theorem stages_lost :
    let d : Desk :=
      { Desk.onDisk .empty Machine.Disk.root true (some .empty) with
        ignored := [Script.childSignal] }
    let p : Pipeline := ⟨[⟨"", [], none, none⟩, ⟨"", [], none, none⟩], false⟩
    let r := p.execute Desk.host.recorded {} "/" "'' | ''" {} ⟨d, []⟩
    children r.2.log = [1000, 1001] ∧ collected r.2.log = [] ∧ r.1.2 = {} ∧
      r.1.1 = .error (.wait (.system .noChild)) ∧
      ¬ ∀ pid ∈ children r.2.log, pid ∈ collected r.2.log ∨ ∃ j ∈ r.1.2.jobs, pid ∈ j.pids := by
  decide +kernel

end Pipeline

end AssistedShell
