import AssistedShell.Proofs.Host.Sparing
import AssistedShell.Proofs.Session.Execution

/-! What lines and scripts leave alone. A session keeps its settings, and a view
of the system that neither its system nor the service of its assistant changes
stays as it is through every line, script and startup file: the shell adds to
files of its own nowhere but in the history. -/

namespace AssistedShell.Session

variable {σ α : Type} {h : Host σ} {view : σ → α} {s t u : Session σ}

/-- Whether the service of a session's assistant, if there is one, leaves a view alone. -/
def Tame (view : σ → α) (s : Session σ) : Prop :=
  ∀ a, s.assistant = .ready a → a.service.Spares view

/-- Whether a tame session has become another one with the same view and settings. -/
structure Spared (view : σ → α) (s t : Session σ) : Prop where
  view_eq : view t.system = view s.system
  settings : t.settings = s.settings
  tame : t.Tame view

theorem Spared.trans (hst : Spared view s t) (htu : Spared view t u) : Spared view s u :=
  ⟨htu.view_eq.trans hst.view_eq, htu.settings.trans hst.settings, htu.tame⟩

/-- A change that concerns neither the settings nor the assistant. -/
theorem Tame.spared (ht : s.Tame view) (hv : view t.system = view s.system)
    (hset : t.settings = s.settings) (ha : t.assistant = s.assistant) : Spared view s t where
  view_eq := hv
  settings := hset
  tame := by
    rw [Tame, ha]
    exact ht

theorem Spared.of_eq (hst : Spared view s t) (hv : u.system = t.system)
    (hset : u.settings = t.settings) (ha : u.assistant = t.assistant) : Spared view s u :=
  hst.trans (hst.tame.spared (congrArg view hv) hset ha)

theorem Tame.refl (ht : s.Tame view) : Spared view s s := ht.spared rfl rfl rfl

/-! ### Built-in commands -/

theorem spared_say (hs : h.Spares view) (ht : s.Tame view) (text : String) :
    Spared view s (s.say h text) := ht.spared (hs.writeOut text s.system) rfl rfl

theorem spared_report (hs : h.Spares view) (ht : s.Tame view) (message : String) :
    Spared view s (s.report h message) := ht.spared (hs.writeErr _ s.system) rfl rfl

theorem spared_changeDirectory (hs : h.Spares view) (ht : s.Tame view) (arguments : List String) :
    Spared view s (s.changeDirectory h arguments).2 := by
  rw [changeDirectory]
  cases destination? (s.home? h) arguments with
  | none => exact spared_report hs ht _
  | some dir =>
    have hc := hs.changeDirectory (joinPath s.directory dir) s.system
    dsimp only
    generalize h.changeDirectory (joinPath s.directory dir) s.system = x at hc ⊢
    rcases x with ⟨f | _, system⟩
    · have hc' : Spared view s { s with system } := ht.spared hc rfl rfl
      exact hc'.trans (spared_report hs hc'.tame _)
    · have hc' : Spared view s { s with system } := ht.spared hc rfl rfl
      dsimp only
      cases h.directory system with
      | error f => exact hc'.trans (spared_report hs hc'.tame _)
      | ok directory => exact hc'.of_eq rfl rfl rfl

theorem spared_exit (hs : h.Spares view) (ht : s.Tame view) (arguments : List String) :
    Spared view s (s.exit h arguments).2 := by
  cases arguments with
  | nil => exact ht.refl.of_eq rfl rfl rfl
  | cons text rest =>
    rw [exit]
    cases statusOf? text with
    | some status => exact ht.refl.of_eq rfl rfl rfl
    | none => exact (spared_report hs ht _).of_eq rfl rfl rfl

theorem spared_history (hs : h.Spares view) (ht : s.Tame view) :
    Spared view s (s.history h).2 := by
  rw [history]
  cases History.entries h s.settings.historyFile s.system with
  | error f => exact spared_report hs ht _
  | ok entries => exact spared_say hs ht _

theorem spared_assignAll (hs : h.Spares view) (ht : s.Tame view) (status : Nat)
    (arguments : List String) : Spared view s (s.assignAll h status arguments).2 := by
  fun_induction assignAll h s status arguments with
  | case1 s status => exact ht.refl
  | case2 s status argument rest _ t ih =>
    have hr : Spared view s t := spared_report hs ht _
    exact hr.trans (ih hr.tame)
  | case3 s status argument rest _ ih => exact ih ht
  | case4 s status argument rest name value _ _ ih =>
    have hr : Spared view s { s with environment := s.environment.set name value } :=
      ht.refl.of_eq rfl rfl rfl
    exact hr.trans (ih hr.tame)
  | case5 s status argument rest name value _ _ => exact ht.refl.of_eq rfl rfl rfl

theorem spared_exportVariables (hs : h.Spares view) (ht : s.Tame view) (arguments : List String) :
    Spared view s (s.exportVariables h arguments).2 := by
  rw [exportVariables]
  split
  · exact spared_say hs ht _
  · exact spared_assignAll hs ht 0 arguments

/-- The service that a session gets leaves alone what its system does. -/
theorem Wakes.tame (hw : s.Wakes h t) (hs : h.SparesInWork view) (ht : s.Tame view) :
    t.Tame view := by
  cases hw with
  | settled | broken => exact ht
  | lacking => rintro a ⟨⟩
  | ready =>
    rintro a ⟨⟩
    exact Service.spares_standard hs _ _

theorem Wakes.spared (hw : s.Wakes h t) (hs : h.Spares view) (ht : s.Tame view) :
    Spared view s t := by
  refine ⟨congrArg view hw.system_eq, ?_, hw.tame hs.toSparesInWork ht⟩
  cases hw with
  | settled | lacking | ready | broken => rfl

theorem spared_announce (hs : h.Spares view) (ht : s.Tame view) (o : Outcome) :
    Spared view s (s.announce h o) := by
  rw [announce]
  cases o.verdict with
  | success => exact ht.refl
  | unresolved => exact spared_report hs ht _
  | exhausted => exact spared_report hs ht _

theorem spared_withAssistant (hs : h.Spares view) (ht : s.Tame view)
    {act : Assistant σ → Session σ → Nat × Session σ}
    (hact : ∀ a t, a.service.Spares view → t.Tame view → Spared view t (act a t).2) :
    Spared view s (s.withAssistant h act).2 := by
  have hw := (wakes_wakeAssistant h s).spared hs ht
  rw [withAssistant]
  generalize s.wakeAssistant h = t at hw ⊢
  rcases ha : t.assistant with _ | a | reason
  · exact hw
  · exact hw.trans (hact a t (hw.tame a ha) hw.tame)
  · exact hw.trans (spared_report hs hw.tame _)

/-- The end of the work with an assistant. -/
theorem Assistant.Kept.spared {a b : Assistant σ} {system : σ}
    (hk : Assistant.Kept view a s.system b system) (ha : a.service.Spares view) :
    Spared view s { s with assistant := .ready b, system } where
  view_eq := hk.view_eq
  settings := rfl
  tame := by
    rintro c hc
    obtain rfl := Availability.ready.inj hc
    exact hk.service.symm ▸ ha

theorem spared_call (hs : h.Spares view) (ht : s.Tame view) (request : String) :
    Spared view s (s.call h request).2 := by
  rw [call]
  split
  · exact spared_report hs ht _
  · refine spared_withAssistant hs ht ?_
    intro a t ha ht
    have hk := Errand.kept_carryOut (e := t.errand h request) hs.toSparesInWork ha t.system
    dsimp only
    generalize (t.errand h request).carryOut h a t.system = x at hk ⊢
    rcases x with ⟨⟨f | outcome, b⟩, system⟩
    · have hb := Assistant.Kept.spared hk ha
      exact hb.trans (spared_report hs hb.tame _)
    · have hb := Assistant.Kept.spared hk ha
      exact hb.trans (spared_announce hs hb.tame outcome)

theorem spared_ask (hs : h.Spares view) (ht : s.Tame view) (question : String) :
    Spared view s (s.ask h question).2 := by
  rw [ask]
  split
  · exact spared_report hs ht _
  · refine spared_withAssistant hs ht ?_
    intro a t ha ht
    have hk := Assistant.kept_request (a := a.setActing false) ha question t.system
    dsimp only
    generalize (a.setActing false).request question t.system = x at hk ⊢
    rcases x with ⟨⟨f | reply, b⟩, system⟩
    · have hb := Assistant.Kept.spared hk ha
      exact hb.trans (spared_report hs hb.tame _)
    · have hb := Assistant.Kept.spared hk ha
      exact hb.trans (spared_say hs hb.tame _)

/-! ### Lines and scripts -/

theorem spared_runPipeline (hs : h.Spares view) (ht : s.Tame view) (p : Pipeline) (line : String) :
    Spared view s (runPipeline h p line s).2 := by
  have hp := p.execute_spared hs.toSparesInWork s.environment s.directory line s.jobs s.system
  rw [runPipeline]
  generalize p.execute h s.environment s.directory line s.jobs s.system = x at hp ⊢
  rcases x with ⟨⟨result, jobs⟩, system⟩
  have hp' : Spared view s { s with jobs, system } := ht.spared hp rfl rfl
  rcases result with f | launched
  · exact hp'.trans (spared_report hs hp'.tame _)
  · cases launched with
    | foreground status => exact hp'
    | background job pid => exact hp'.trans (spared_say hs hp'.tame _)

theorem spared_runBuiltin (hs : h.Spares view) (ht : s.Tame view) {b : Builtin}
    {arguments : List String} (script : ScriptRunner σ) (hb : b = .source → arguments = []) :
    Spared view s (runBuiltin h script b arguments s).2 := by
  match b with
  | .cd => exact spared_changeDirectory hs ht arguments
  | .exit => exact spared_exit hs ht arguments
  | .help => exact spared_say hs ht helpText
  | .history => exact spared_history hs ht
  | .export => exact spared_exportVariables hs ht arguments
  | .source =>
    rw [hb rfl]
    exact spared_report hs ht _
  | .call => exact spared_call hs ht _
  | .ask => exact spared_ask hs ht _

theorem spared_perform (hs : h.Spares view) (ht : s.Tame view) (script : ScriptRunner σ)
    (line : String) {parsed : Except SyntaxFault (Option Pipeline)}
    (hd : demand parsed = .plain) : Spared view s (perform h script line parsed s).2 := by
  rcases parsed with f | _ | p
  · exact spared_report hs ht _
  · exact ht.refl
  rcases hb : builtinOf? p with _ | ⟨b, arguments⟩
  · rw [perform, hb]
    exact (spared_runPipeline hs ht p line).of_eq rfl rfl rfl
  · rw [perform, hb]
    exact (spared_runBuiltin hs ht script (of_demand_plain hd hb).2).of_eq rfl rfl rfl

theorem Runs.spared (hs : h.Spares view) {task : Task} {es : List Event} {n : Nat}
    (hr : Runs h task s es n t) (ht : s.Tame view) : Spared view s t := by
  induction hr with
  | @plain line _ _ _ _ hd hp =>
    have hv := spared_perform hs ht (runNested h) line hd
    rwa [hp] at hv
  | @exit _ _ arguments _ _ _ _ he =>
    have hv := spared_exit hs ht arguments
    rw [he] at hv
    exact hv.of_eq rfl rfl rfl
  | source _ _ ih => exact (ih ht).of_eq rfl rfl rfl
  | missing | refused => exact spared_report hs ht _
  | found _ _ ih => exact ih ht
  | @script _ _ s _ _ _ _ _ ih =>
    have hd : Spared view s { s with depth := s.depth + 1 } := ht.spared rfl rfl rfl
    exact (hd.trans (ih hd.tame)).of_eq rfl rfl rfl
  | finished | cut => exact ht.refl
  | idle _ _ ih => exact ih ht
  | last _ _ _ ih => exact ih ht
  | next _ _ _ _ ih ih' => exact (ih ht).trans (ih' (ih ht).tame)

/-! ### Between lines -/

theorem spared_foldl_say (hs : h.Spares view) (ht : s.Tame view) (finished : List FinishedJob) :
    Spared view s (finished.foldl (fun t j => t.say h j.notice) s) := by
  induction finished generalizing s with
  | nil => exact ht.refl
  | cons j finished ih =>
    have hj := spared_say hs ht j.notice
    exact hj.trans (ih hj.tame)

theorem spared_reapJobs (hs : h.Spares view) (ht : s.Tame view) :
    Spared view s (s.reapJobs h) := by
  have hr := s.jobs.reap_spared hs.toSparesInWork s.system
  rw [reapJobs]
  generalize s.jobs.reap h s.system = x at hr ⊢
  rcases x with ⟨⟨finished, jobs⟩, system⟩
  have hj : Spared view s { s with jobs, system } := ht.spared hr rfl rfl
  exact hj.trans (spared_foldl_say hs hj.tame finished)

theorem spared_runStartupFile (hs : h.Spares view) (ht : s.Tame view) (path : String) :
    Spared view s (s.runStartupFile h path) := by
  rw [runStartupFile]
  cases h.readText s.system path with
  | ok text =>
    obtain ⟨es, hr⟩ := exists_runs h (.script path text) s
    exact hr.spared hs ht
  | error f =>
    dsimp only
    split
    · exact ht.refl
    · exact spared_report hs ht _

theorem spared_runStartupFiles (hs : h.Spares view) (home : String) (names : List String)
    (ht : s.Tame view) : Spared view s (runStartupFiles h home names s) := by
  induction names generalizing s with
  | nil => exact ht.refl
  | cons name names ih =>
    have hf := spared_runStartupFile hs ht (joinPath home name)
    rw [runStartupFiles]
    split
    · exact hf
    · exact hf.trans (ih hf.tame)

theorem spared_startUp (hs : h.Spares view) (ht : s.Tame view) :
    Spared view s (s.startUp h) := by
  rw [startUp]
  cases s.home? h with
  | none => exact ht.refl
  | some home => exact spared_runStartupFiles hs home Home.startupFiles ht

end AssistedShell.Session
