import AssistedShell.Machine.Kernel
import AssistedShell.Proofs.Pipeline.Record
import AssistedShell.Proofs.Pipeline.Wiring

/-! A pipeline that cannot be made ready. Only the last stage opens a file to
write, and it does so after everything that is opened to read; what can still
fail then is a word that no program can be given. So a redirection that fails
leaves the files as they were, and whatever keeps the stages from being made
ready leaves processes and jobs alone. -/

namespace AssistedShell

variable {σ α : Type} {h : Host σ} {files : σ → α}

/-- Whether a system's files stay as they are when something is opened to be read, is closed, or
cannot be opened to be written. -/
structure Host.KeepsFiles (h : Host σ) (files : σ → α) : Prop where
  openInput : ∀ path s, files (h.openInput path s).2 = files s
  stageText : ∀ text s, files (h.stageText text s).2 = files s
  close : ∀ d s, files (h.close d s) = files s
  noOutput : ∀ path append s e, (h.openOutput path append s).1 = .error e →
    files (h.openOutput path append s).2 = files s

namespace Launch

/-- Whether a redirection failed. -/
def isRedirection : LaunchFault → Bool
  | .redirect .. | .hereDoc _ => true
  | _ => false

/-- Whether only the last stage opens a file to write. -/
def WritesLast (stages : List (Stage × StagePlan)) : Prop :=
  ∀ x ∈ stages.dropLast, x.2.stdout = .pipe

/-! ### Files -/

theorem closeAll_keeps (hk : h.KeepsFiles files) (ds : List Descriptor) (s : σ) :
    files (closeAll h ds s) = files s := by
  induction ds generalizing s with
  | nil => rfl
  | cons d ds ih => exact (ih (h.close d s)).trans (hk.close d s)

theorem openStdin_keeps (hk : h.KeepsFiles files) (cwd : String) (plan : StdinPlan) (s : σ) :
    files (openStdin h cwd plan s).2 = files s := by
  cases plan with
  | inherit | pipe => rfl
  | file path => exact hk.openInput (joinPath cwd path) s
  | hereDoc text => exact hk.stageText text s

theorem openStdout_keeps (hk : h.KeepsFiles files) {cwd : String} {plan : StdoutPlan} {s s' : σ}
    {f : LaunchFault} (ho : openStdout h cwd plan s = (.error f, s')) : files s' = files s := by
  cases plan with
  | inherit | pipe => cases ho
  | file target =>
    rw [openStdout] at ho
    have hn := hk.noOutput (joinPath cwd target.path) target.append s
    generalize h.openOutput (joinPath cwd target.path) target.append s = x at hn ho
    rcases x with ⟨e | d, t⟩
    · obtain ⟨-, rfl⟩ := Prod.mk.inj ho
      exact hn e rfl
    · cases ho

section
variable {env : Environment} {cwd : String} {s s' : σ} {f : LaunchFault}

/-- A redirection of a stage that fails is one to read, or the one to write itself. -/
theorem prepare_keeps_of_error (hk : h.KeepsFiles files) {stage : Stage} {plan : StagePlan}
    (hp : prepare h env cwd stage plan s = (.error f, s')) (hf : isRedirection f = true) :
    files s' = files s := by
  have hi := openStdin_keeps hk cwd plan.stdin s
  rw [prepare] at hp
  generalize openStdin h cwd plan.stdin s = x at hi hp
  rcases x with ⟨e | stdin, t⟩
  · obtain ⟨-, rfl⟩ := Prod.mk.inj hp
    exact hi
  dsimp only at hi hp
  rcases ho : openStdout h cwd plan.stdout t with ⟨e | stdout, u⟩
  all_goals
    rw [ho] at hp
    dsimp only at hp
  · obtain ⟨-, rfl⟩ := Prod.mk.inj hp
    rw [closeAll_keeps hk, openStdout_keeps hk ho, hi]
  · cases hm : image h env cwd stage u with
    | error e =>
      rw [hm] at hp
      obtain ⟨he, -⟩ := Prod.mk.inj hp
      rw [← Except.error.inj he, image_fault hm] at hf
      cases hf
    | ok image =>
      rw [hm] at hp
      cases hp

/-- A stage that writes to a pipe changes no file. -/
theorem prepare_keeps_of_ok (hk : h.KeepsFiles files) {stage : Stage} {plan : StagePlan}
    (hw : plan.stdout = .pipe) {p : Prepared}
    (hp : prepare h env cwd stage plan s = (.ok p, s')) : files s' = files s := by
  have hi := openStdin_keeps hk cwd plan.stdin s
  rw [prepare, hw] at hp
  generalize openStdin h cwd plan.stdin s = x at hi hp
  rcases x with ⟨e | stdin, t⟩
  · cases hp
  dsimp only [openStdout] at hi hp
  cases hm : image h env cwd stage t with
  | error e =>
    rw [hm] at hp
    cases hp
  | ok image =>
    rw [hm] at hp
    obtain ⟨-, rfl⟩ := Prod.mk.inj hp
    exact hi

theorem prepareAll_keeps (hk : h.KeepsFiles files) {stages : List (Stage × StagePlan)}
    (hl : WritesLast stages) (hp : prepareAll h env cwd stages s = (.error f, s'))
    (hf : isRedirection f = true) : files s' = files s := by
  induction stages generalizing s s' with
  | nil => cases hp
  | cons x rest ih =>
    obtain ⟨stage, plan⟩ := x
    rw [prepareAll] at hp
    rcases h₁ : prepare h env cwd stage plan s with ⟨e | p, t⟩
    all_goals
      rw [h₁] at hp
      dsimp only at hp
    · obtain ⟨he, rfl⟩ := Prod.mk.inj hp
      rw [Except.error.inj he] at h₁
      exact prepare_keeps_of_error hk h₁ hf
    rcases h₂ : prepareAll h env cwd rest t with ⟨e | ps, u⟩
    all_goals
      rw [h₂] at hp
      dsimp only at hp
    · -- A later stage failed, so this one is not the last.
      have hne : rest ≠ [] := by
        rintro rfl
        cases h₂
      rw [WritesLast, List.dropLast_cons_of_ne_nil hne] at hl
      obtain ⟨hw, hl⟩ := List.forall_mem_cons.mp hl
      obtain ⟨he, rfl⟩ := Prod.mk.inj hp
      rw [Except.error.inj he] at h₂
      rw [closeAll_keeps hk, ih hl h₂, prepare_keeps_of_ok hk hw h₁]
    · cases hp

end

/-! ### Calls -/

/-- Whether a call opens something to read, closes a descriptor or fails to open something to
write. -/
def isHarmless : Call → Bool
  | .openInput .. | .stageText .. | .close _ | .openOutput _ _ (.error _) => true
  | _ => false

/-- The calls of a record that may change a file. -/
def harms (r : Recorded σ) : List Call := r.log.filter fun c => !isHarmless c

theorem keepsFiles_recorded (h : Host σ) : h.recorded.KeepsFiles harms where
  openInput path r := by simp [Host.recorded, Recorded.perform, harms, isHarmless]
  stageText text r := by simp [Host.recorded, Recorded.perform, harms, isHarmless]
  close d r := by simp [Host.recorded, harms, isHarmless]
  noOutput path append r e he := by
    have he : (h.openOutput path append r.state).1 = .error e := he
    simp [Host.recorded, Recorded.perform, harms, isHarmless, he]

theorem forall_isHarmless_of_harms_eq_nil {r : Recorded σ} (hr : harms r = []) :
    ∀ c ∈ r.log, isHarmless c = true := by
  intro c hc
  by_contra hn
  exact List.filter_eq_nil_iff.mp hr c hc (by simpa using hn)

end Launch

namespace Pipeline

open Launch

/-- Of the stages of a pipeline, only the last opens a file to write. -/
theorem writesLast_planned (p : Pipeline) : WritesLast p.planned := by
  intro x hx
  obtain ⟨i, hi, rfl⟩ := List.getElem_of_mem hx
  rw [List.length_dropLast, planned, List.length_mapIdx] at hi
  rw [List.getElem_dropLast]
  by_contra hw
  simp only [planned, List.getElem_mapIdx] at hw
  have := (Stage.plan_stdout_ne_pipe_iff _ i p.stages.length).mp hw
  omega

section
variable {p : Pipeline} {env : Environment} {cwd cmdline : String} {jobs : JobTable} {s : σ}
  {f : LaunchFault}

/-- A fault that keeps the stages from being made ready ends the pipeline there. -/
theorem execute_of_isEarly (hr : (p.execute h env cwd cmdline jobs s).1.1 = .error f)
    (hf : isEarly f = true) :
    ∃ s', prepareAll h env cwd p.planned s = (.error f, s') ∧
      p.execute h env cwd cmdline jobs s = ((.error f, jobs), s') := by
  rcases hp : prepareAll h env cwd p.planned s with ⟨e | stages, t⟩
  · have he : p.execute h env cwd cmdline jobs s = ((.error e, jobs), t) := by rw [execute, hp]
    rw [he] at hr
    obtain rfl := Except.error.inj hr
    exact ⟨t, rfl, he⟩
  -- Once the stages are ready, only other faults are left.
  rw [execute, hp] at hr
  dsimp only at hr
  rcases hs : start h env stages none t with ⟨⟨pids, fault | g⟩, u⟩
  all_goals
    rw [hs] at hr
    dsimp only at hr
  · by_cases hb : p.background = true
    · rw [if_pos hb] at hr
      cases hr
    · rw [if_neg hb] at hr
      generalize awaitAll h pids 0 u = x at hr
      rcases x with ⟨e | status, v⟩
      · obtain rfl := Except.error.inj hr
        cases hf
      · cases hr
  · obtain rfl := Except.error.inj hr
    obtain ⟨calls, hc, -⟩ := start_recorded [] hs
    have := hc.isMidway rfl
    cases g <;> simp_all [isEarly, isMidway]

end

/-- What a pipeline leaves as it was that could not be made ready, with what it asked of the
system: it started no process and became no job, and it touched no file unless the words of a
stage were to blame. -/
structure LeavesAlone (files : σ → α) (jobs : JobTable) (s : σ) (fault : LaunchFault)
    (log : List Call) (jobs' : JobTable) (s' : σ) : Prop where
  jobs : jobs' = jobs
  processes : ∀ c ∈ log, isIdle c = true
  files : isRedirection fault = true → files s' = files s
  calls : isRedirection fault = true → ∀ c ∈ log, isHarmless c = true

/-- A pipeline with a redirection that fails, or with a word that no program can be given, starts
no process and becomes no job. In the first case it does not change a file either. -/
theorem execute_leaves_alone (hk : h.KeepsFiles files) (p : Pipeline) (env : Environment)
    (cwd cmdline : String) (jobs : JobTable) (s : σ) (f : LaunchFault)
    (hr : (p.execute h env cwd cmdline jobs s).1.1 = .error f) (hf : isEarly f = true) :
    ∃ log jobs' s', p.execute h env cwd cmdline jobs s = ((.error f, jobs'), s') ∧
      p.execute h.recorded env cwd cmdline jobs ⟨s, []⟩ = ((.error f, jobs'), ⟨s', log⟩) ∧
      LeavesAlone files jobs s f log jobs' s' := by
  obtain ⟨s', hp, he⟩ := execute_of_isEarly hr hf
  obtain ⟨log, hc, hq⟩ := prepareAll_recorded [] hp
  rw [List.nil_append] at hq
  have hq' : p.execute h.recorded env cwd cmdline jobs ⟨s, []⟩ = ((.error f, jobs), ⟨s', log⟩) := by
    rw [execute, hq]
  refine ⟨log, jobs, s', he, hq', rfl, hc.idle, fun ho => ?_, fun ho => ?_⟩
  · exact prepareAll_keeps hk p.writesLast_planned hp ho
  · exact forall_isHarmless_of_harms_eq_nil
      (prepareAll_keeps (keepsFiles_recorded h) p.writesLast_planned hq ho)

end Pipeline

/-! ### The machine -/

namespace Machine

/-- To open a file only to read it changes nothing on a disk. -/
theorem Disk.openFile_read {d disk : Disk} {here id : NodeId} {path : String}
    (ho : d.openFile here path { read := true } = .ok (id, disk)) : disk = d := by
  rw [openFile] at ho
  split at ho
  · cases ho
  split at ho
  · cases ho
  split at ho
  · cases ho
  -- There is such a node, and only a file that is emptied would change.
  split at ho
  · cases ho
  split at ho
  · cases ho
  split at ho
  · cases ho
  split at ho
  · exact (Prod.mk.inj (Except.ok.inj ho)).2.symm
  · cases ho
  · exact (Prod.mk.inj (Except.ok.inj ho)).2.symm

theorem State.write_disk {m m' : State} {file now : Nat} {data : Stream} {f : OpenFile}
    (hf : m.files[file]? = some f) {id : Nat} (ht : f.target = .pipe id)
    (hw : m.write file now data = .ok m') : m'.disk = m.disk := by
  rw [write, hf] at hw
  dsimp only at hw
  split at hw
  · cases hw
  · rw [ht] at hw
    obtain rfl := Except.ok.inj hw
    rfl

namespace Desk

theorem openPath_error {d : Desk} {path : String} {a : Disk.Access} {append : Bool} {e : Fault}
    (ho : (d.openPath path a append).1 = .error e) : (d.openPath path a append).2 = d := by
  rw [openPath] at ho ⊢
  split
  · rfl
  · rename_i heq
    rw [heq] at ho
    cases ho

theorem eq_ok_of_checked {β : Type} {path : String} {r : Except Errno β} {b : β}
    (hc : checked path r = .ok b) : r = .ok b := by
  rw [checked] at hc
  split at hc
  · cases hc
  · rcases r with e | b'
    · cases hc
    · exact congrArg _ (Except.ok.inj hc)

theorem openPath_read_disk (d : Desk) (path : String) :
    (d.openPath path { read := true } false).2.machine.disk = d.machine.disk := by
  rw [openPath]
  split
  · rfl
  · rename_i hc
    exact Disk.openFile_read (eq_ok_of_checked hc)

theorem stageText_disk (d : Desk) (text : String) :
    (d.stageText text).2.machine.disk = d.machine.disk := by
  let m := d.machine.pipe.2
  have hf : m.files[d.machine.pipe.1.2]? = some ⟨.pipe d.machine.next, 0, false, false, true⟩ := by
    simp [m, State.pipe, State.openAs, State.fresh]
  rw [stageText]
  dsimp only
  rcases hw : m.write d.machine.pipe.1.2 m.clock (.ofBytes text.toUTF8) with e | m'
  · rfl
  · have hd : m'.disk = m.disk := State.write_disk hf rfl hw
    exact hd

end Desk

/-- Only a file that is opened to be written can change on the machine's disk. -/
theorem Desk.hostOn_keepsFiles (shell : Program) :
    (Desk.hostOn shell).KeepsFiles fun d => d.machine.disk where
  openInput path d := d.openPath_read_disk path
  stageText text d := d.stageText_disk text
  close _ _ := rfl
  noOutput _ _ _ _ he := congrArg (fun d : Desk => d.machine.disk) (openPath_error he)

/-- Nothing is in the root of an empty disk. -/
theorem Disk.openFile_missing :
    Disk.empty.openFile Disk.root "/missing" { read := true } = .error .noEntry := by
  have hg : Disk.empty.get? Disk.root = some ⟨0o755, .directory [] Disk.root⟩ := rfl
  have hp : Disk.partsOf "/missing" = ["missing"] := by decide +kernel
  have hl : Disk.empty.locate Disk.root true "/missing" =
      .ok ⟨Disk.root, "missing", none, false⟩ := by
    rw [locate, if_neg (by decide +kernel), if_neg (by decide +kernel), hp, ite_self, walk, hg]
    rfl
  have hx : (!({ read := true } : Disk.Access).exclusive) = true := rfl
  rw [openFile, hx, hl]
  rfl

theorem Desk.openPath_missing {d : Desk} (hd : d.machine.disk = .empty)
    (hc : d.machine.directory = Disk.root) :
    d.openPath "/missing" { read := true } false = (.error (.system .noEntry), d) := by
  rw [openPath, hd, hc, Disk.openFile_missing, checked, if_neg (by simp)]
  rfl

end Machine

open Machine (Desk Disk) in
/-- On an empty disk, the first of two stages reads a file that is missing, and the last would make
one. -/
theorem Pipeline.execute_leaves_alone_missing :
    let d := Desk.onDisk .empty Disk.root true (some .empty)
    let p : Pipeline :=
      ⟨[⟨"cat", ["cat"], some (.file "missing"), none⟩,
        ⟨"cat", ["cat"], none, some ⟨"out", false⟩⟩], false⟩
    let f : LaunchFault := .redirect "missing" (.system .noEntry)
    Desk.host.KeepsFiles (fun d => d.machine.disk) ∧
      (p.execute Desk.host {} "/" "" {} d).1.1 = .error f ∧ Launch.isEarly f = true ∧
      ∃ log jobs' d', p.execute Desk.host {} "/" "" {} d = ((.error f, jobs'), d') ∧
        p.execute Desk.host.recorded {} "/" "" {} ⟨d, []⟩ = ((.error f, jobs'), ⟨d', log⟩) ∧
        LeavesAlone (fun d => d.machine.disk) {} d f log jobs' d' := by
  intro d p f
  have hk : Desk.host.KeepsFiles fun d => d.machine.disk := Desk.hostOn_keepsFiles _
  have hj : joinPath "/" "missing" = "/missing" := by decide +kernel
  have ho : Desk.host.openInput (joinPath "/" "missing") d = (.error (.system .noEntry), d) := by
    rw [hj]
    exact Desk.openPath_missing rfl rfl
  have hr : (p.execute Desk.host {} "/" "" {} d).1.1 = .error f := by
    simp only [execute, planned, p, List.mapIdx_cons, Launch.prepareAll, Launch.prepare]
    simp [Stage.plan, Launch.openStdin, ho]
    rfl
  exact ⟨hk, hr, rfl, execute_leaves_alone hk p {} "/" "" {} d f hr rfl⟩

end AssistedShell
