import AssistedShell.Process.Report
import AssistedShell.Proofs.Session.Breakdown

/-! Statuses are bytes. The status of every line, the last status of every
session that a shell can come to, and the status of its latch are less than
256, so the exit status of the process is the one that the shell ends with. All
that is asked of the system is that an ending is an exit code of one byte or a
signal of seven bits. -/

namespace AssistedShell

variable {σ : Type} {h : Host σ}

/-! ### Pipelines -/

namespace Launch

theorem awaitAll_lt {pids : List Pid} {status n : Nat} {s : σ} (hs : status < 256)
    (ha : (awaitAll h pids status s).1 = .ok n) : n < 256 := by
  induction pids generalizing status s with
  | nil =>
    obtain rfl := Except.ok.inj ha
    exact hs
  | cons pid pids ih =>
    rw [awaitAll] at ha
    rcases hw : h.await pid s with ⟨f | ending, t⟩
    · rw [hw] at ha
      cases ha
    · rw [hw] at ha
      exact ih ending.status_lt ha

end Launch

theorem Pipeline.foreground_lt {p : Pipeline} {env : Environment} {cwd cmdline : String}
    {jobs : JobTable} {s : σ} {n : Nat}
    (hp : (p.execute h env cwd cmdline jobs s).1.1 = .ok (.foreground n)) : n < 256 := by
  rw [execute] at hp
  rcases hs : Launch.prepareAll h env cwd p.planned s with ⟨f | stages, t⟩
  · rw [hs] at hp
    cases hp
  rw [hs] at hp
  dsimp only at hp
  rcases hl : Launch.start h env stages none t with ⟨⟨pids, _ | f⟩, u⟩
  · rw [hl] at hp
    dsimp only at hp
    split at hp
    · cases hp
    · rcases ha : Launch.awaitAll h pids 0 u with ⟨f | m, v⟩
      · rw [ha] at hp
        cases hp
      · rw [ha] at hp
        obtain rfl := Launched.foreground.inj (Except.ok.inj hp)
        exact Launch.awaitAll_lt (Nat.zero_lt_succ _) (congrArg Prod.fst ha)
  · rw [hl] at hp
    cases hp

namespace Session

variable {s s' t : Session σ} {n : Nat}

theorem runPipeline_lt (p : Pipeline) (line : String) (s : Session σ) :
    (runPipeline h p line s).1 < 256 := by
  rw [runPipeline]
  rcases hp : p.execute h s.environment s.directory line s.jobs s.system with
    ⟨⟨f | launched, jobs⟩, system⟩
  · exact Nat.one_lt_succ_succ 254
  · cases launched with
    | foreground status => exact Pipeline.foreground_lt (congrArg (·.1.1) hp)
    | background job pid => exact Nat.zero_lt_succ 255

/-! ### Built-in commands -/

theorem changeDirectory_le (s : Session σ) (arguments : List String) :
    (s.changeDirectory h arguments).1 ≤ 2 := by
  rw [changeDirectory]
  cases destination? (s.home? h) arguments with
  | none => exact Nat.le_succ 1
  | some dir =>
    dsimp only
    rcases h.changeDirectory (joinPath s.directory dir) s.system with ⟨f | _, system⟩
    · exact Nat.le_succ 1
    · dsimp only
      cases h.directory system with
      | error f => exact Nat.le_succ 1
      | ok directory => exact Nat.zero_le 2

theorem history_le (s : Session σ) : (s.history h).1 ≤ 2 := by
  rw [history]
  cases History.entries h s.settings.historyFile s.system with
  | error f => exact Nat.le_succ 1
  | ok entries => exact Nat.zero_le 2

theorem assignAll_le (s : Session σ) (arguments : List String) {status : Nat}
    (hs : status ≤ 2) : (s.assignAll h status arguments).1 ≤ 2 := by
  fun_induction assignAll h s status arguments with
  | case1 s status => exact hs
  | case2 s status argument rest _ t ih => exact ih (Nat.le_succ 1)
  | case3 s status argument rest _ ih => exact ih hs
  | case4 s status argument rest name value _ _ ih => exact ih hs
  | case5 s status argument rest name value _ _ => exact hs

theorem exportVariables_le (s : Session σ) (arguments : List String) :
    (s.exportVariables h arguments).1 ≤ 2 := by
  rw [exportVariables]
  split
  · exact Nat.zero_le 2
  · exact assignAll_le s arguments (Nat.zero_le 2)

theorem withAssistant_le {act : Assistant σ → Session σ → Nat × Session σ}
    (hact : ∀ a t, (act a t).1 ≤ 2) (s : Session σ) : (s.withAssistant h act).1 ≤ 2 := by
  rw [withAssistant]
  generalize s.wakeAssistant h = t
  rcases t.assistant with _ | a | reason
  · exact Nat.le_succ 1
  · exact hact a t
  · exact Nat.le_succ 1

theorem status_le (o : Outcome) : o.status ≤ 2 := by
  rw [Outcome.status]
  split
  · exact Nat.zero_le 2
  · exact Nat.le_succ 1

theorem call_le (s : Session σ) (request : String) : (s.call h request).1 ≤ 2 := by
  rw [call]
  split
  · exact Nat.le_refl 2
  · refine withAssistant_le ?_ s
    intro a t
    dsimp only
    rcases (t.errand h request).carryOut h a t.system with ⟨⟨f | outcome, b⟩, system⟩
    · exact Nat.le_succ 1
    · exact status_le outcome

theorem ask_le (s : Session σ) (question : String) : (s.ask h question).1 ≤ 2 := by
  rw [ask]
  split
  · exact Nat.le_refl 2
  · refine withAssistant_le ?_ s
    intro a t
    dsimp only
    rcases (a.setActing false).request question t.system with ⟨⟨f | reply, b⟩, system⟩
    · exact Nat.le_succ 1
    · exact Nat.zero_le 2

/-- The statuses of the built-in commands that neither end the session nor run a script. -/
theorem runBuiltin_le {b : Builtin} (script : ScriptRunner σ) (arguments : List String)
    (hx : b ≠ .exit) (hs : b = .source → arguments = []) (s : Session σ) :
    (runBuiltin h script b arguments s).1 ≤ 2 := by
  match b with
  | .cd => exact changeDirectory_le s arguments
  | .exit => exact absurd rfl hx
  | .help => exact Nat.zero_le 2
  | .history => exact history_le s
  | .export => exact exportVariables_le s arguments
  | .source =>
    rw [hs rfl]
    exact Nat.le_refl 2
  | .call => exact call_le s _
  | .ask => exact ask_le s _

/-! ### Sessions -/

/-- Whether the last status and the status of the latch are bytes. -/
structure Bytewise (s : Session σ) : Prop where
  lastStatus : s.lastStatus < 256
  exitLatch : ∀ status, s.exitLatch = some status → status < 256

theorem Bytewise.exitStatus (hb : s.Bytewise) : s.exitStatus < 256 := by
  rw [Session.exitStatus]
  cases hl : s.exitLatch with
  | none => exact hb.lastStatus
  | some status => exact hb.exitLatch status hl

theorem Bytewise.of_eq (hb : s.Bytewise) (hs : t.lastStatus = s.lastStatus)
    (hl : t.exitLatch = s.exitLatch) : t.Bytewise where
  lastStatus := by rw [hs]; exact hb.lastStatus
  exitLatch := by rw [hl]; exact hb.exitLatch

/-- The end of a line: its status is the last one. -/
theorem Bytewise.of_line (hb : s.Bytewise) (hs : t.lastStatus < 256)
    (hl : t.exitLatch = s.exitLatch) : t.Bytewise where
  lastStatus := hs
  exitLatch := by rw [hl]; exact hb.exitLatch

theorem ExitStatus.lt {last : Nat} {arguments : List String} (hx : ExitStatus last arguments n)
    (hl : last < 256) : n < 256 := by
  cases hx with
  | last => exact hl
  | numeral => omega
  | other => decide

theorem Bytewise.exit (hb : s.Bytewise) {arguments : List String}
    (he : s.exit h arguments = (n, s')) : n < 256 ∧ { s' with lastStatus := n }.Bytewise := by
  have hx : ExitStatus s.lastStatus arguments n := by
    have hx := exit_status h s arguments
    rwa [he] at hx
  have hn : n < 256 := hx.lt hb.lastStatus
  obtain ⟨system, rfl⟩ := exit_snd h he
  refine ⟨hn, hn, ?_⟩
  intro status hl
  dsimp only at hl
  cases hs : s.exitLatch with
  | none =>
    rw [hs] at hl
    obtain rfl := Option.some.inj hl
    exact hn
  | some first =>
    rw [hs] at hl
    obtain rfl := Option.some.inj hl
    exact hb.exitLatch _ hs

/-! ### Lines and scripts -/

variable {line : String} {parsed : Except SyntaxFault (Option Pipeline)}

theorem perform_plain_lt (script : ScriptRunner σ) (line : String) (hd : demand parsed = .plain)
    (hs : s.lastStatus < 256) : (perform h script line parsed s).1 < 256 := by
  rcases parsed with f | _ | p
  · exact hs
  · exact hs
  rcases hb : builtinOf? p with _ | ⟨b, arguments⟩
  · rw [perform, hb]
    exact runPipeline_lt p line s
  · obtain ⟨hx, hn⟩ := of_demand_plain hd hb
    have hle := runBuiltin_le (h := h) script arguments hx hn s
    rw [perform, hb]
    exact Nat.lt_of_le_of_lt hle (by decide)

/-- Whether the status that a task begins with is a byte, where it has one. -/
def Task.Bytewise : Task → Prop
  | .lines _ status => status < 256
  | _ => True

theorem Runs.bytewise {task : Task} {es : List Event} (hr : Runs h task s es n s')
    (ht : task.Bytewise) (hb : s.Bytewise) : n < 256 ∧ s'.Bytewise := by
  induction hr with
  | @plain line parsed s n s' hd hp =>
    have hn := perform_plain_lt (h := h) (runNested h) line hd hb.lastStatus
    rw [hp] at hn
    obtain ⟨-, hl, hs⟩ := perform_plain_steady hd (hp (runNested h))
    exact ⟨hn, hb.of_line (hs.symm ▸ hn) hl⟩
  | exit _ he => exact hb.exit he
  | source _ _ ih =>
    obtain ⟨hn, hb'⟩ := ih trivial hb
    exact ⟨hn, hb'.of_line hn rfl⟩
  | missing | refused => exact ⟨by decide, hb.of_eq rfl rfl⟩
  | found _ _ ih => exact ih trivial hb
  | script _ _ ih =>
    obtain ⟨hn, hb'⟩ := ih (by decide : 0 < 256) (hb.of_eq rfl rfl)
    exact ⟨hn, hb'.of_eq rfl rfl⟩
  | finished | cut => exact ⟨ht, hb⟩
  | idle _ _ ih => exact ih ht hb
  | last _ _ _ ih => exact ih trivial hb
  | next _ _ _ _ ih ih' =>
    obtain ⟨hn, hb'⟩ := ih trivial hb
    exact ih' hn hb'

theorem Performs.bytewise {task : Task} (hp : Performs h task s parsed t)
    (ht : task.Bytewise) (hb : s.Bytewise) : t.Bytewise := by
  induction hp with
  | here => exact hb
  | source _ _ ih => exact ih trivial hb
  | file _ _ ih => exact ih trivial hb
  | script _ _ ih => exact ih (by decide : 0 < 256) (hb.of_eq rfl rfl)
  | idle _ _ ih => exact ih ht hb
  | first _ _ ih => exact ih trivial hb
  | later _ hr _ _ ih =>
    obtain ⟨hn, hb'⟩ := hr.bytewise trivial hb
    exact ih hn hb'

theorem Task.result_lt (task : Task) (ht : task.Bytewise) (hb : s.Bytewise) :
    (task.result h s).1 < 256 := by
  obtain ⟨es, hr⟩ := exists_runs h task s
  exact (hr.bytewise ht hb).1

/-! ### What a session is put to -/

theorem Bytewise.reapJobs (hb : s.Bytewise) : (s.reapJobs h).Bytewise := by
  obtain ⟨jobs, system, ht⟩ := exists_reapJobs h s
  rw [ht]
  exact hb.of_eq rfl rfl

theorem Proceeds.bytewise {a : Activity} {es : List Event} (hp : Proceeds h a s es s')
    (hb : s.Bytewise) : s'.Bytewise := by
  induction hp with
  | line hr | script hr | present _ hr => exact (hr.bytewise trivial hb).2
  | absent | noFiles | homeless | ended | silent => exact hb
  | unreadable => exact hb.of_eq rfl rfl
  | lastFile _ _ ih => exact ih hb
  | nextFile _ _ _ ih ih' => exact ih' (ih hb)
  | atHome _ _ ih => exact ih hb
  | closed | cut => exact hb.reapJobs
  | blank _ _ _ ih => exact ih hb.reapJobs
  | command _ _ ht hr _ ih =>
    subst ht
    exact ih (hr.bytewise trivial (hb.reapJobs.of_eq rfl rfl)).2
  | greeted _ _ ih ih' => exact ih' (ih hb)
  | reading _ _ _ ih => exact ih (hb.of_eq rfl rfl)

/-- The sessions that a shell can come to, those within scripts included. -/
inductive Reachable (h : Host σ) : Session σ → Prop where
  | start {settings environment system s} :
      Session.start h settings environment system = .ok s → Reachable h s
  /-- Another assistant is put in. -/
  | assisted {s : Session σ} (a : Assistant σ) :
      Reachable h s → Reachable h { s with assistant := .ready a }
  /-- The system goes on by itself. -/
  | elapsed {s : Session σ} (system : σ) : Reachable h s → Reachable h { s with system }
  | reaped {s : Session σ} : Reachable h s → Reachable h (s.reapJobs h)
  | recorded {s : Session σ} (line : String) : Reachable h s → Reachable h (s.recordHistory h line)
  | put {s : Session σ} (a : Activity) : Reachable h s → Reachable h (a.result h s)
  /-- A line of the task is performed in the session. -/
  | within {s t : Session σ} {task : Task} {q : Except SyntaxFault (Option Pipeline)} :
      task.Bytewise → Reachable h s → Performs h task s q t → Reachable h t

theorem Reachable.bytewise (hr : Reachable h s) : s.Bytewise := by
  induction hr with
  | @start settings environment system s hs =>
    rw [Session.start] at hs
    cases hd : h.directory system with
    | error f =>
      rw [hd] at hs
      cases hs
    | ok directory =>
      rw [hd] at hs
      obtain rfl := Except.ok.inj hs
      exact ⟨Nat.zero_lt_succ 255, nofun⟩
  | assisted _ _ ih | elapsed _ _ ih | recorded _ _ ih => exact ih.of_eq rfl rfl
  | reaped _ ih => exact ih.reapJobs
  | put a _ ih =>
    obtain ⟨es, hp⟩ := exists_proceeds h a _
    exact hp.bytewise ih
  | within ht _ hp ih => exact hp.bytewise ht ih

end Session

/-! ### Processes -/

namespace CommandLine

open Session

variable {s : Session σ}

theorem conclude_lt (hb : s.Bytewise) : (conclude s).1 < 256 := by
  rw [conclude]
  dsimp only
  split
  · exact (by decide : 101 < 256)
  · exact hb.exitStatus

theorem conduct_lt (o : Options) (hb : s.Bytewise) : (conduct h o s).1 < 256 := by
  have hact : ∀ a : Activity, (a.result h s).Bytewise := by
    intro a
    obtain ⟨es, hp⟩ := exists_proceeds h a s
    exact hp.bytewise hb
  rcases o with ⟨_ | command, model, bare, _ | path⟩
  · have hi : (s.interact h (!bare)).2.Bytewise := hact (.interaction !bare)
    rw [conduct]
    dsimp only
    rcases hr : s.interact h (!bare) with ⟨f | _, t⟩
    · exact Nat.one_lt_succ_succ 254
    · rw [hr] at hi
      exact conclude_lt hi
  · exact conclude_lt (hact (.script path))
  · exact conclude_lt (hact (.line command []))
  · exact conclude_lt (hact (.line command []))

theorem run_lt (env : Environment) (arguments : List String) (system : σ) :
    (run h env arguments system).1 < 256 := by
  rw [run]
  split
  · exact Nat.zero_lt_succ 255
  · exact Nat.zero_lt_succ 255
  · exact (by decide : 2 < 256)
  · split
    · exact Nat.one_lt_succ_succ 254
    · dsimp only
      split
      · exact Nat.one_lt_succ_succ 254
      · exact conduct_lt _ (Reachable.start ‹_›).bytewise

/-- In every session that a shell can come to, the last status, the status that the shell would end
with, and those of the next line or script are bytes. A process exits with the status that its
shell ends with: as a byte it is the same. The endings that the system reports are taken for bytes,
too. -/
theorem statuses_are_bytes (hr : Reachable h s) :
    s.lastStatus < 256 ∧ s.exitStatus < 256 ∧
    (∀ line input, (s.execute h line input).1.1 < 256) ∧ (∀ path, (s.source h path).1 < 256) ∧
    (∀ o : Options, (UInt8.ofNat (conduct h o s).1).toNat = (conduct h o s).1) ∧
    (∀ env arguments system,
      (UInt8.ofNat (run h env arguments system).1).toNat = (run h env arguments system).1) ∧
    ∀ word e, Reports word e →
      statusOfWord word < 256 ∧ (e ≠ .killed 127 → statusOfWord word = e.status) := by
  have hb : s.Bytewise := hr.bytewise
  have hbyte : ∀ {code : Nat}, code < 256 → (UInt8.ofNat code).toNat = code := fun hc =>
    UInt8.toNat_ofNat_of_lt hc
  refine ⟨hb.lastStatus, hb.exitStatus, ?_, ?_, ?_, ?_, ?_⟩
  · intro line input
    exact Task.result_lt (.line line (s.parse line input).value) trivial hb
  · intro path
    exact Task.result_lt (.file path) trivial hb
  · intro o
    exact hbyte (conduct_lt o hb)
  · intro env arguments system
    exact hbyte (run_lt env arguments system)
  · intro word e hw
    exact ⟨hw.statusOfWord_lt, hw.statusOfWord_eq⟩

/-- A session in which a negative number was given to `exit`. -/
theorem statuses_are_bytes_negative :
    let h : Host Machine.Desk := { Machine.Desk.host with directory := fun _ => .ok "/" }
    let s : Session Machine.Desk :=
      { system := .onDisk .empty Machine.Disk.root true none
        settings := .ofPreferences {} none "/root/.ghsh"
        environment := {}
        directory := "/" }
    let t := (Activity.line "exit -300" []).result h s
    Reachable h t ∧ t.exitLatch = some 212 ∧ t.exitStatus < 256 ∧
      (UInt8.ofNat (conduct h { command := some "false" } t).1).toNat =
        (conduct h { command := some "false" } t).1 := by
  intro h s t
  have hs : Reachable h s := Reachable.start rfl
  have ht : Reachable h t := hs.put _
  obtain ⟨-, he, -, -, hc, -⟩ := statuses_are_bytes ht
  exact ⟨ht, by decide +kernel, he, hc _⟩

end CommandLine

end AssistedShell
