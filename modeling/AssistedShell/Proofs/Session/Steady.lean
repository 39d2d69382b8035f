import AssistedShell.Proofs.Session.Waking
import AssistedShell.Session.Dialogue

/-! What commands leave as it is. Apart from `exit` and the scripts, a command
changes neither how deeply scripts are nested nor whether the session is to
end, and the last status is set by the line, not by its command. -/

namespace AssistedShell.Session

variable {σ : Type} (h : Host σ)

/-- Whether two sessions have the same nesting, latch and last status. -/
structure Steady (s t : Session σ) : Prop where
  depth : t.depth = s.depth
  latch : t.exitLatch = s.exitLatch
  lastStatus : t.lastStatus = s.lastStatus

theorem Steady.refl (s : Session σ) : s.Steady s := ⟨rfl, rfl, rfl⟩

theorem Steady.trans {s t u : Session σ} (hst : s.Steady t) (htu : t.Steady u) : s.Steady u :=
  ⟨htu.depth.trans hst.depth, htu.latch.trans hst.latch, htu.lastStatus.trans hst.lastStatus⟩

/-! ### Built-in commands -/

theorem steady_say (s : Session σ) (text : String) : s.Steady (s.say h text) := ⟨rfl, rfl, rfl⟩

theorem steady_report (s : Session σ) (message : String) : s.Steady (s.report h message) :=
  ⟨rfl, rfl, rfl⟩

/-- What `cd` changes. -/
theorem exists_changeDirectory (s : Session σ) (arguments : List String) :
    ∃ system directory, (s.changeDirectory h arguments).2 = { s with system, directory } := by
  rw [changeDirectory]
  cases destination? (s.home? h) arguments with
  | none => exact ⟨_, s.directory, rfl⟩
  | some dir =>
    dsimp only
    rcases h.changeDirectory (joinPath s.directory dir) s.system with ⟨f | _, system⟩
    · exact ⟨_, s.directory, rfl⟩
    · dsimp only
      cases h.directory system with
      | error f => exact ⟨_, s.directory, rfl⟩
      | ok directory => exact ⟨_, directory, rfl⟩

theorem steady_changeDirectory (s : Session σ) (arguments : List String) :
    s.Steady (s.changeDirectory h arguments).2 := by
  obtain ⟨system, directory, ht⟩ := exists_changeDirectory h s arguments
  rw [ht]
  exact ⟨rfl, rfl, rfl⟩

/-- What `history` changes. -/
theorem exists_history (s : Session σ) : ∃ system, (s.history h).2 = { s with system } := by
  rw [history]
  cases History.entries h s.settings.historyFile s.system with
  | error f => exact ⟨_, rfl⟩
  | ok entries => exact ⟨_, rfl⟩

theorem steady_history (s : Session σ) : s.Steady (s.history h).2 := by
  obtain ⟨system, ht⟩ := exists_history h s
  rw [ht]
  exact ⟨rfl, rfl, rfl⟩

theorem steady_assignAll (s : Session σ) (status : Nat) (arguments : List String) :
    s.Steady (s.assignAll h status arguments).2 := by
  fun_induction assignAll h s status arguments with
  | case1 s status => exact .refl s
  | case2 s status argument rest _ t ih => exact (steady_report h s _).trans ih
  | case3 s status argument rest _ ih => exact ih
  | case4 s status argument rest name value _ _ ih => exact ⟨ih.depth, ih.latch, ih.lastStatus⟩
  | case5 s status argument rest name value _ _ => exact ⟨rfl, rfl, rfl⟩

theorem steady_exportVariables (s : Session σ) (arguments : List String) :
    s.Steady (s.exportVariables h arguments).2 := by
  rw [exportVariables]
  split
  · exact steady_say h s _
  · exact steady_assignAll h s 0 arguments

variable {h} in
theorem Wakes.steady {s t : Session σ} (hw : s.Wakes h t) : s.Steady t := by
  cases hw with
  | settled => exact .refl s
  | lacking | ready | broken => exact ⟨rfl, rfl, rfl⟩

theorem steady_wakeAssistant (s : Session σ) : s.Steady (s.wakeAssistant h) :=
  (wakes_wakeAssistant h s).steady

/-- What the end of the work on a request changes. -/
theorem exists_announce (s : Session σ) (o : Outcome) :
    ∃ system, s.announce h o = { s with system } := by
  rw [announce]
  cases o.verdict with
  | success => exact ⟨s.system, rfl⟩
  | unresolved => exact ⟨_, rfl⟩
  | exhausted => exact ⟨_, rfl⟩

/-- What is done with the assistant changes, after it has been looked for. -/
theorem exists_withAssistant {act : Assistant σ → Session σ → Nat × Session σ}
    (hact : ∀ a t, ∃ system assistant, (act a t).2 = { t with system, assistant })
    (s : Session σ) :
    ∃ system assistant, (s.withAssistant h act).2 = { s.wakeAssistant h with system, assistant } := by
  rw [withAssistant]
  dsimp only
  generalize s.wakeAssistant h = t
  rcases ha : t.assistant with _ | a | reason
  · exact ⟨t.system, t.assistant, rfl⟩
  · exact hact a t
  · exact ⟨_, t.assistant, rfl⟩

/-- What `call` changes, after it has looked for the assistant. -/
theorem exists_call {request : String} (hr : request.isAllBlank = false) (s : Session σ) :
    ∃ system assistant, (s.call h request).2 = { s.wakeAssistant h with system, assistant } := by
  rw [call, if_neg (Bool.eq_false_iff.mp hr)]
  refine exists_withAssistant h ?_ s
  intro a t
  dsimp only
  rcases (t.errand h request).carryOut h a t.system with ⟨⟨f | outcome, b⟩, system⟩
  · exact ⟨_, _, rfl⟩
  · obtain ⟨system', ht⟩ := exists_announce h { t with assistant := .ready b, system } outcome
    exact ⟨system', .ready b, ht⟩

/-- What `ask` changes, after it has looked for the assistant. -/
theorem exists_ask {question : String} (hq : question.isAllBlank = false) (s : Session σ) :
    ∃ system assistant, (s.ask h question).2 = { s.wakeAssistant h with system, assistant } := by
  rw [ask, if_neg (Bool.eq_false_iff.mp hq)]
  refine exists_withAssistant h ?_ s
  intro a t
  dsimp only
  rcases (a.setActing false).request question t.system with ⟨⟨f | reply, b⟩, system⟩
  · exact ⟨_, _, rfl⟩
  · exact ⟨_, _, rfl⟩

variable {h} in
/-- To look for the assistant and to change no more than it and the system is steady. -/
theorem Steady.of_wake {s t : Session σ}
    (ht : ∃ system assistant, t = { s.wakeAssistant h with system, assistant }) : s.Steady t := by
  obtain ⟨system, assistant, rfl⟩ := ht
  have hw := steady_wakeAssistant h s
  exact ⟨hw.depth, hw.latch, hw.lastStatus⟩

theorem steady_call (s : Session σ) (request : String) : s.Steady (s.call h request).2 := by
  by_cases hr : request.isAllBlank = true
  · rw [call, if_pos hr]
    exact steady_report h s _
  · exact .of_wake (exists_call h (Bool.eq_false_iff.mpr hr) s)

theorem steady_ask (s : Session σ) (question : String) : s.Steady (s.ask h question).2 := by
  by_cases hq : question.isAllBlank = true
  · rw [ask, if_pos hq]
    exact steady_report h s _
  · exact .of_wake (exists_ask h (Bool.eq_false_iff.mpr hq) s)

/-! ### Pipelines and the loop around them -/

/-- What a pipeline changes. -/
theorem exists_runPipeline (p : Pipeline) (line : String) (s : Session σ) :
    ∃ jobs system, (runPipeline h p line s).2 = { s with jobs, system } := by
  rw [runPipeline]
  rcases p.execute h s.environment s.directory line s.jobs s.system with ⟨⟨f | launched, jobs⟩, system⟩
  · exact ⟨_, _, rfl⟩
  · cases launched with
    | foreground status => exact ⟨_, _, rfl⟩
    | background job pid => exact ⟨_, _, rfl⟩

theorem steady_runPipeline (p : Pipeline) (line : String) (s : Session σ) :
    s.Steady (runPipeline h p line s).2 := by
  obtain ⟨jobs, system, ht⟩ := exists_runPipeline h p line s
  rw [ht]
  exact ⟨rfl, rfl, rfl⟩

/-- What the collection of jobs changes. -/
theorem exists_reapJobs (s : Session σ) : ∃ jobs system, s.reapJobs h = { s with jobs, system } := by
  have hsay : ∀ (finished : List FinishedJob) (t : Session σ),
      ∃ system, finished.foldl (fun t j => t.say h j.notice) t = { t with system } := by
    intro finished
    induction finished with
    | nil => exact fun t => ⟨t.system, rfl⟩
    | cons j finished ih => exact fun t => ih (t.say h j.notice)
  obtain ⟨system, hs⟩ := hsay (s.jobs.reap h s.system).1.1
    { s with jobs := (s.jobs.reap h s.system).1.2, system := (s.jobs.reap h s.system).2 }
  exact ⟨_, system, hs⟩

/-! ### The end of a session -/

/-- What `exit` changes: it may write, and it sets the latch unless it is set. -/
theorem exit_snd {s s' : Session σ} {arguments : List String} {n : Nat}
    (he : s.exit h arguments = (n, s')) :
    ∃ system, s' = { s with system, exitLatch := s.exitLatch <|> some n } := by
  cases arguments with
  | nil =>
    obtain ⟨rfl, rfl⟩ := Prod.mk.inj he
    exact ⟨_, rfl⟩
  | cons text rest =>
    rw [exit] at he
    cases hs : statusOf? text with
    | none =>
      rw [hs] at he
      obtain ⟨rfl, rfl⟩ := Prod.mk.inj he
      exact ⟨_, rfl⟩
    | some status =>
      rw [hs] at he
      obtain ⟨rfl, rfl⟩ := Prod.mk.inj he
      exact ⟨_, rfl⟩

/-! ### Lines -/

/-- What a line asks for, as far as scripts and the end of the session go. -/
inductive Demand where
  | exit (arguments : List String)
  | source (path : String)
  | plain
  deriving DecidableEq, Repr

/-- The demand of a line. A built-in command is one only as the single stage of its line. -/
def demand : Except SyntaxFault (Option Pipeline) → Demand
  | .ok (some p) =>
    match builtinOf? p with
    | some (.exit, arguments) => .exit arguments
    | some (.source, path :: _) => .source path
    | _ => .plain
  | _ => .plain

variable {h} {line : String} {parsed : Except SyntaxFault (Option Pipeline)} {s : Session σ}

theorem exists_builtin_of_demand (hd : demand parsed ≠ .plain) :
    ∃ p b arguments, parsed = .ok (some p) ∧ builtinOf? p = some (b, arguments) := by
  rcases parsed with f | _ | p
  · exact absurd rfl hd
  · exact absurd rfl hd
  · rcases hb : builtinOf? p with _ | ⟨b, arguments⟩
    · exact absurd (by rw [demand, hb]) hd
    · exact ⟨p, b, arguments, rfl, hb⟩

theorem perform_of_exit {arguments : List String} (hd : demand parsed = .exit arguments)
    (script : ScriptRunner σ) :
    perform h script line parsed s =
      ((s.exit h arguments).1,
        { (s.exit h arguments).2 with lastStatus := (s.exit h arguments).1 }) := by
  have hn : demand parsed ≠ .plain := by rw [hd]; nofun
  obtain ⟨p, b, args, rfl, hb⟩ := exists_builtin_of_demand hn
  rw [demand, hb] at hd
  rw [perform, hb]
  dsimp only
  cases b with
  | exit =>
    obtain rfl := Demand.exit.inj hd
    rfl
  | source =>
    cases args with
    | nil => cases hd
    | cons => cases hd
  | _ => cases hd

theorem perform_of_source {path : String} (hd : demand parsed = .source path)
    (script : ScriptRunner σ) :
    perform h script line parsed s =
      ((runFile h script path s).1,
        { (runFile h script path s).2 with lastStatus := (runFile h script path s).1 }) := by
  have hn : demand parsed ≠ .plain := by rw [hd]; nofun
  obtain ⟨p, b, args, rfl, hb⟩ := exists_builtin_of_demand hn
  rw [demand, hb] at hd
  rw [perform, hb]
  dsimp only
  cases b with
  | source =>
    cases args with
    | nil => cases hd
    | cons text rest =>
      obtain rfl := Demand.source.inj hd
      rfl
  | _ => cases hd

/-- A plain line runs no script, and so it does not matter how scripts are run. -/
theorem perform_of_plain (hd : demand parsed = .plain) (script script' : ScriptRunner σ) :
    perform h script line parsed s = perform h script' line parsed s := by
  rcases parsed with f | _ | p
  · rfl
  · rfl
  rcases hb : builtinOf? p with _ | ⟨b, arguments⟩
  · rw [perform, perform, hb]
  rw [demand, hb] at hd
  rw [perform, perform, hb]
  dsimp only
  cases b with
  | exit => cases hd
  | source =>
    cases arguments with
    | nil => rfl
    | cons => cases hd
  | _ => rfl

theorem steady_runBuiltin {b : Builtin} {arguments : List String} (script : ScriptRunner σ)
    (hx : b ≠ .exit) (hs : b = .source → arguments = []) :
    s.Steady (runBuiltin h script b arguments s).2 := by
  match b with
  | .cd => exact steady_changeDirectory h s arguments
  | .exit => exact absurd rfl hx
  | .help => exact steady_say h s _
  | .history => exact steady_history h s
  | .export => exact steady_exportVariables h s arguments
  | .source =>
    rw [hs rfl]
    exact steady_report h s _
  | .call => exact steady_call h s _
  | .ask => exact steady_ask h s _

/-- A built-in command of a plain line is neither `exit` nor a script. -/
theorem of_demand_plain {p : Pipeline} {b : Builtin} {arguments : List String}
    (hd : demand (.ok (some p)) = .plain) (hb : builtinOf? p = some (b, arguments)) :
    b ≠ .exit ∧ (b = .source → arguments = []) := by
  rw [demand, hb] at hd
  constructor
  · rintro rfl
    cases hd
  · rintro rfl
    cases arguments with
    | nil => rfl
    | cons => cases hd

/-- A plain line keeps the nesting and the latch, and its status is the last one. -/
theorem perform_plain_steady {n : Nat} {s' : Session σ} {script : ScriptRunner σ}
    (hd : demand parsed = .plain) (hp : perform h script line parsed s = (n, s')) :
    s'.depth = s.depth ∧ s'.exitLatch = s.exitLatch ∧ s'.lastStatus = n := by
  rcases parsed with f | _ | p
  · obtain ⟨rfl, rfl⟩ := Prod.mk.inj hp
    exact ⟨rfl, rfl, rfl⟩
  · obtain ⟨rfl, rfl⟩ := Prod.mk.inj hp
    exact ⟨rfl, rfl, rfl⟩
  rcases hb : builtinOf? p with _ | ⟨b, arguments⟩
  · rw [perform, hb] at hp
    obtain ⟨rfl, rfl⟩ := Prod.mk.inj hp
    have hs := steady_runPipeline h p line s
    exact ⟨hs.depth, hs.latch, rfl⟩
  · obtain ⟨hx, hn⟩ := of_demand_plain hd hb
    rw [perform, hb] at hp
    obtain ⟨rfl, rfl⟩ := Prod.mk.inj hp
    have hs : s.Steady (runBuiltin h script b arguments s).2 := steady_runBuiltin script hx hn
    exact ⟨hs.depth, hs.latch, rfl⟩

end AssistedShell.Session
