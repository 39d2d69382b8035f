import AssistedShell.Pipeline.Launch
import AssistedShell.Proofs.Assistant.Protocol

/-! What commands leave alone. A view of a system is spared if only the making
of directories and the adding to private files may change it. Jobs, pipelines
and the work on requests do neither, so they leave such a view as it is. -/

namespace AssistedShell

variable {σ α : Type} {h : Host σ} {view : σ → α}

/-- Whether a system leaves a view of its state alone in all that jobs, pipelines and the work on
requests ask of it. -/
structure Host.SparesInWork (h : Host σ) (view : σ → α) : Prop where
  openInput : ∀ path s, view (h.openInput path s).2 = view s
  openOutput : ∀ path append s, view (h.openOutput path append s).2 = view s
  stageText : ∀ text s, view (h.stageText text s).2 = view s
  makePipe : ∀ s, view (h.makePipe s).2 = view s
  close : ∀ d s, view (h.close d s) = view s
  spawn : ∀ env child s, view (h.spawn env child s).2 = view s
  await : ∀ pid s, view (h.await pid s).2 = view s
  poll : ∀ pid s, view (h.poll pid s).2 = view s
  writeOut : ∀ text s, view (h.writeOut text s).2 = view s
  capture : ∀ env command dir s, view (h.capture env command dir s).2 = view s
  preview : ∀ prompt command ms s, view (h.preview prompt command ms s).2 = view s
  send : ∀ request s, view (h.send request s).2 = view s

/-- Whether a system leaves a view of its state alone, except when it makes a directory, makes a
private file or adds to one. -/
structure Host.Spares (h : Host σ) (view : σ → α) : Prop extends h.SparesInWork view where
  changeDirectory : ∀ path s, view (h.changeDirectory path s).2 = view s
  readInput : ∀ s, view (h.readInput s).2 = view s
  writeErr : ∀ text s, view (h.writeErr text s).2 = view s

/-! ### Jobs -/

theorem Job.pollAll_spared (hs : h.SparesInWork view) (last : Option Pid) (pids : List Pid)
    (status : Nat) (s : σ) : view (pollAll h last pids status s).2 = view s := by
  induction pids generalizing status s with
  | nil => rfl
  | cons pid pids ih =>
    have hp := hs.poll pid s
    rw [pollAll]
    generalize h.poll pid s = x at hp ⊢
    rcases x with ⟨answer, t⟩
    dsimp only
    split
    · exact (ih status t).trans hp
    · exact (ih _ t).trans hp

theorem Job.poll_spared (hs : h.SparesInWork view) (j : Job) (s : σ) :
    view (j.poll h s).2 = view s :=
  pollAll_spared hs j.pids.getLast? j.pids j.lastStatus s

theorem JobTable.pollJobs_spared (hs : h.SparesInWork view) (jobs : List Job) (s : σ) :
    view (pollJobs h jobs s).2 = view s := by
  induction jobs generalizing s with
  | nil => rfl
  | cons j jobs ih => exact (ih (j.poll h s).2).trans (j.poll_spared hs s)

theorem JobTable.reap_spared (hs : h.SparesInWork view) (t : JobTable) (s : σ) :
    view (t.reap h s).2 = view s := pollJobs_spared hs t.jobs s

/-! ### Pipelines -/

namespace Launch

theorem closeAll_spared (hs : h.SparesInWork view) (ds : List Descriptor) (s : σ) :
    view (closeAll h ds s) = view s := by
  induction ds generalizing s with
  | nil => rfl
  | cons d ds ih => exact (ih (h.close d s)).trans (hs.close d s)

theorem openStdin_spared (hs : h.SparesInWork view) (cwd : String) (plan : StdinPlan) (s : σ) :
    view (openStdin h cwd plan s).2 = view s := by
  cases plan with
  | inherit | pipe => rfl
  | file path => exact hs.openInput (joinPath cwd path) s
  | hereDoc text => exact hs.stageText text s

theorem openStdout_spared (hs : h.SparesInWork view) (cwd : String) (plan : StdoutPlan) (s : σ) :
    view (openStdout h cwd plan s).2 = view s := by
  cases plan with
  | inherit | pipe => rfl
  | file target => exact hs.openOutput (joinPath cwd target.path) target.append s

theorem prepare_spared (hs : h.SparesInWork view) (env : Environment) (cwd : String) (stage : Stage)
    (plan : StagePlan) (s : σ) : view (prepare h env cwd stage plan s).2 = view s := by
  have hi := openStdin_spared hs cwd plan.stdin s
  rw [prepare]
  generalize openStdin h cwd plan.stdin s = x at hi ⊢
  rcases x with ⟨f | stdin, t⟩
  · exact hi
  have ho := (openStdout_spared hs cwd plan.stdout t).trans hi
  dsimp only
  generalize openStdout h cwd plan.stdout t = x at ho ⊢
  rcases x with ⟨f | stdout, u⟩
  · exact (closeAll_spared hs _ u).trans ho
  dsimp only
  cases image h env cwd stage u with
  | error f => exact (closeAll_spared hs _ u).trans ho
  | ok image => exact ho

theorem prepareAll_spared (hs : h.SparesInWork view) (env : Environment) (cwd : String)
    (stages : List (Stage × StagePlan)) (s : σ) :
    view (prepareAll h env cwd stages s).2 = view s := by
  induction stages generalizing s with
  | nil => rfl
  | cons p rest ih =>
    rcases p with ⟨stage, plan⟩
    have hp := prepare_spared hs env cwd stage plan s
    rw [prepareAll]
    generalize prepare h env cwd stage plan s = x at hp ⊢
    rcases x with ⟨f | p, t⟩
    · exact hp
    have hr := (ih t).trans hp
    dsimp only
    generalize prepareAll h env cwd rest t = x at hr ⊢
    rcases x with ⟨f | ps, u⟩
    · exact (closeAll_spared hs _ u).trans hr
    · exact hr

theorem pipeAfter_spared (hs : h.SparesInWork view) (rest : List Prepared) (s : σ) :
    view (pipeAfter h rest s).2 = view s := by
  rw [pipeAfter]
  split
  · rfl
  · exact hs.makePipe s

theorem start_spared (hs : h.SparesInWork view) (env : Environment) (stages : List Prepared)
    (previous : Option Descriptor) (s : σ) :
    view (start h env stages previous s).2 = view s := by
  induction stages generalizing previous s with
  | nil => exact closeAll_spared hs _ s
  | cons p rest ih =>
    have hp := pipeAfter_spared hs rest s
    rw [start]
    generalize pipeAfter h rest s = x at hp ⊢
    rcases x with ⟨f | pipe, t⟩
    · exact (closeAll_spared hs _ t).trans hp
    dsimp only
    generalize hc : (⟨p.image, previous <|> p.stdin, pipe.map (·.2) <|> p.stdout⟩ : Child) = child
    have hf := (hs.spawn env child t).trans hp
    generalize h.spawn env child t = x at hf ⊢
    rcases x with ⟨f | pid, u⟩
    · exact (closeAll_spared hs _ u).trans hf
    · exact (ih _ _).trans ((closeAll_spared hs _ u).trans hf)

theorem awaitAll_spared (hs : h.SparesInWork view) (pids : List Pid) (status : Nat) (s : σ) :
    view (awaitAll h pids status s).2 = view s := by
  induction pids generalizing status s with
  | nil => rfl
  | cons pid pids ih =>
    have ha := hs.await pid s
    rw [awaitAll]
    generalize h.await pid s = x at ha ⊢
    rcases x with ⟨f | ending, t⟩
    · exact ha
    · exact (ih ending.status t).trans ha

end Launch

theorem Pipeline.execute_spared (hs : h.SparesInWork view) (p : Pipeline) (env : Environment)
    (cwd cmdline : String) (jobs : JobTable) (s : σ) :
    view (p.execute h env cwd cmdline jobs s).2 = view s := by
  have hp := Launch.prepareAll_spared hs env cwd p.planned s
  rw [execute]
  generalize Launch.prepareAll h env cwd p.planned s = x at hp ⊢
  rcases x with ⟨f | stages, t⟩
  · exact hp
  have ht := (Launch.start_spared hs env stages none t).trans hp
  dsimp only
  generalize Launch.start h env stages none t = x at ht ⊢
  rcases x with ⟨⟨pids, _ | f⟩, u⟩
  · dsimp only
    split
    · exact ht
    have ha := (Launch.awaitAll_spared hs pids 0 u).trans ht
    generalize Launch.awaitAll h pids 0 u = x at ha ⊢
    rcases x with ⟨f | status, v⟩
    · exact ha
    · exact ha
  · exact ht

/-! ### Requests -/

/-- Whether a service leaves a view of the system alone. -/
def Service.Spares (service : Service σ) (view : σ → α) : Prop :=
  ∀ request s, view (service request s).2 = view s

theorem Service.spares_standard (hs : h.SparesInWork view) (settings : Settings) (key : Credential) :
    (Service.standard h.explain h.send settings key).Spares view := fun _ s => hs.send _ s

/-- Whether the work with an assistant leaves its service and a view of the system alone. -/
structure Assistant.Kept (view : σ → α) (a : Assistant σ) (s : σ) (b : Assistant σ) (t : σ) :
    Prop where
  service : b.service = a.service
  view_eq : view t = view s

theorem Assistant.Kept.trans {a b c : Assistant σ} {s t u : σ} (hk : Kept view a s b t)
    (hk' : Kept view b t c u) : Kept view a s c u :=
  ⟨hk'.service.trans hk.service, hk'.view_eq.trans hk.view_eq⟩

theorem Assistant.kept_request {a : Assistant σ} (ha : a.service.Spares view) (text : String)
    (s : σ) : Kept view a s (a.request text s).1.2 (a.request text s).2 := by
  have hr : view ((a.record .user text).service (a.record .user text).pending s).2 = view s :=
    ha _ s
  rw [request]
  generalize (a.record .user text).service (a.record .user text).pending s = x at hr ⊢
  rcases x with ⟨f | reply, t⟩
  · exact ⟨rfl, hr⟩
  · exact ⟨rfl, hr⟩

namespace Errand

variable {e : Errand} {a : Assistant σ} {x y : Standing σ} {call : Call} {vs : List Visit}

theorem Move.kept (hs : h.SparesInWork view) (hx : x.assistant.service.Spares view)
    (hm : Move h e a x call y) : x.assistant.Kept view x.system y.assistant y.system := by
  cases hm with
  | @preview _ _ _ s _ line _ hp =>
    have hv := hs.preview e.prompt line e.previewMs s
    rw [hp] at hv
    exact ⟨rfl, hv⟩
  | @capture _ _ _ s _ command _ hc =>
    have hv := hs.capture e.environment command e.directory s
    rw [hc] at hv
    exact ⟨rfl, hv⟩
  | @unwritten _ _ _ s _ output _ hw | @shown _ _ _ s _ output hw =>
    have hv := hs.writeOut output s
    rw [hw] at hv
    exact ⟨rfl, hv⟩
  | @ask _ _ b _ s _ text _ acting hr =>
    have hk := Assistant.kept_request (a := b.setActing acting) hx text s
    rw [hr] at hk
    exact ⟨hk.service, hk.view_eq⟩

theorem Moves.kept (hs : h.SparesInWork view) (hx : x.assistant.service.Spares view)
    (hm : Moves h e a x vs y) : x.assistant.Kept view x.system y.assistant y.system := by
  induction hm with
  | start => exact ⟨rfl, rfl⟩
  | step hm _ ih =>
    have hk := hm.kept hs hx
    exact hk.trans (ih (hk.service.symm ▸ hx))

theorem kept_carryOut (hs : h.SparesInWork view) {a : Assistant σ} (ha : a.service.Spares view)
    (s : σ) : a.Kept view s (e.carryOut h a s).1.2 (e.carryOut h a s).2 := by
  obtain ⟨vs, y, result, hm, -, hx, -⟩ := carryOut_tracks h (e := e) a s []
  rw [hx]
  exact hm.kept hs ha

end Errand

end AssistedShell
