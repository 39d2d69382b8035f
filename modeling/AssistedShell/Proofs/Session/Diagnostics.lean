import AssistedShell.Proofs.Session.CommandHistory
import AssistedShell.Proofs.Session.Grounds

/-! The error output of the shell. Whatever a line runs, the shell itself writes
there exactly the complaints that there are grounds for. They are lines of their
own exactly if none of them quotes a newline; an argument in quotes can have one. -/

namespace AssistedShell

variable {σ : Type}

/-! ### What is written to the error output -/

/-- What was written to the error output. -/
def Call.diagnostic? : Call → Option String
  | .writeErr text _ => some text
  | _ => none

/-- What was written to the error output, in order. -/
def Recorded.diagnostics (r : Recorded σ) : List String := r.log.filterMap Call.diagnostic?

theorem Recorded.diagnostics_perform {α : Type} (r : Recorded σ) (operation : σ → α × σ)
    (call : α → Call) :
    (r.perform operation call).2.diagnostics =
      r.diagnostics ++ (call (operation r.state).1).diagnostic?.toList :=
  r.filterMap_log_perform Call.diagnostic? operation call

theorem Recorded.diagnostics_perform_of_none {α : Type} (r : Recorded σ) (operation : σ → α × σ)
    {call : α → Call} (hc : ∀ answer, (call answer).diagnostic? = none) :
    (r.perform operation call).2.diagnostics = r.diagnostics := by
  rw [diagnostics_perform, hc, Option.toList_none, List.append_nil]

/-- Whether a view of a system is the list of the texts on its error output, as far as the shell's
commands can tell. -/
structure Host.Prints (h : Host σ) (texts : σ → List String) : Prop
    extends h.SparesInWork texts where
  changeDirectory : ∀ path s, texts (h.changeDirectory path s).2 = texts s
  writeErr : ∀ text s, texts (h.writeErr text s).2 = texts s ++ [text]

theorem Host.prints_diagnostics (h : Host σ) : h.recorded.Prints Recorded.diagnostics where
  openInput _ r := r.diagnostics_perform_of_none _ fun _ => rfl
  openOutput _ _ r := r.diagnostics_perform_of_none _ fun _ => rfl
  stageText _ r := r.diagnostics_perform_of_none _ fun _ => rfl
  makePipe r := r.diagnostics_perform_of_none _ fun _ => rfl
  close d r :=
    @Recorded.diagnostics_perform_of_none _ _ r (fun s => ((), h.close d s)) (fun _ => .close d)
      fun _ => rfl
  spawn _ _ r := r.diagnostics_perform_of_none _ fun _ => rfl
  await _ r := r.diagnostics_perform_of_none _ fun _ => rfl
  poll _ r := r.diagnostics_perform_of_none _ fun _ => rfl
  changeDirectory _ r := r.diagnostics_perform_of_none _ fun _ => rfl
  writeOut _ r := r.diagnostics_perform_of_none _ fun _ => rfl
  writeErr _ r := r.diagnostics_perform _ _
  capture _ _ _ r := r.diagnostics_perform_of_none _ fun _ => rfl
  preview _ _ _ r := r.diagnostics_perform_of_none _ fun _ => rfl
  send _ r := r.diagnostics_perform_of_none _ fun _ => rfl

theorem Service.spares_diagnostics (service : Service σ) :
    (Service.recorded service).Spares Recorded.diagnostics := fun _ r =>
  r.diagnostics_perform_of_none _ fun _ => rfl

namespace Session

variable {h : Host σ} {texts : σ → List String} {s t u : Session σ} {cs cs' : List Complaint}

/-! ### What is written -/

/-- Whether, on the way from a session to another one, complaints were written and nothing else, and
the assistant of the other one writes none by itself. -/
structure Tells (texts : σ → List String) (s t : Session σ) (cs : List Complaint) : Prop where
  told : texts t.system = texts s.system ++ cs.map Complaint.line
  tame : t.Tame texts

theorem Tells.trans (hst : Tells texts s t cs) (htu : Tells texts t u cs') :
    Tells texts s u (cs ++ cs') := by
  refine ⟨?_, htu.tame⟩
  rw [htu.told, hst.told, List.map_append, List.append_assoc]

theorem Tells.of_eq (hst : Tells texts s t cs) (hs : u.system = t.system)
    (ha : u.assistant = t.assistant) : Tells texts s u cs := by
  refine ⟨hs ▸ hst.told, ?_⟩
  rw [Tame, ha]
  exact hst.tame

theorem Tells.nothing (he : texts t.system = texts s.system) (ht : t.Tame texts) :
    Tells texts s t [] := ⟨by simp [he], ht⟩

/-- A step without complaints that does not concern the assistant. -/
theorem Tame.tells_nothing (ht : s.Tame texts) (he : texts t.system = texts s.system)
    (ha : t.assistant = s.assistant) : Tells texts s t [] := by
  refine .nothing he ?_
  rw [Tame, ha]
  exact ht

theorem tells_say (hp : h.Prints texts) (ht : s.Tame texts) (text : String) :
    Tells texts s (s.say h text) [] :=
  ht.tells_nothing (hp.writeOut text s.system) rfl

theorem tells_report (hp : h.Prints texts) (ht : s.Tame texts) (c : Complaint) :
    Tells texts s (s.report h c.message) [c] :=
  ⟨hp.writeErr c.line s.system, ht⟩

/-! ### Built-in commands -/

theorem tells_changeDirectory (hp : h.Prints texts) (ht : s.Tame texts)
    (arguments : List String) : ∃ cs, BuiltinComplains h s arguments .cd cs ∧
      Tells texts s (s.changeDirectory h arguments).2 cs := by
  rw [changeDirectory]
  cases hd : destination? (s.home? h) arguments with
  | none => exact ⟨_, .homeless hd, tells_report hp ht .homeless⟩
  | some dir =>
    have hq := hp.changeDirectory (joinPath s.directory dir) s.system
    dsimp only
    rcases hx : h.changeDirectory (joinPath s.directory dir) s.system with ⟨f | _, system⟩
    · rw [hx] at hq
      have hgo := ht.tells_nothing (t := { s with system }) hq rfl
      exact ⟨_, .entering hd (by rw [hx]), hgo.trans (tells_report hp hgo.tame (.entering _ f))⟩
    · rw [hx] at hq
      have hgo := ht.tells_nothing (t := { s with system }) hq rfl
      dsimp only
      cases hl : h.directory system with
      | error f =>
        exact ⟨_, .locating hd (by rw [hx]) (by rw [hx]; exact hl),
          hgo.trans (tells_report hp hgo.tame (.locating f))⟩
      | ok directory =>
        exact ⟨_, .located hd (by rw [hx]) (by rw [hx]; exact hl), hgo.of_eq rfl rfl⟩

theorem tells_exit (hp : h.Prints texts) (ht : s.Tame texts) (arguments : List String) :
    ∃ cs, BuiltinComplains h s arguments .exit cs ∧ Tells texts s (s.exit h arguments).2 cs := by
  cases arguments with
  | nil => exact ⟨_, .exit (by simp), ht.tells_nothing rfl rfl⟩
  | cons argument rest =>
    rw [exit]
    cases hs : statusOf? argument with
    | some status => exact ⟨_, .exit (by simp [hs]), ht.tells_nothing rfl rfl⟩
    | none =>
      have hr := tells_report hp ht (.status argument)
      exact ⟨_, .status rfl hs, hr.of_eq rfl rfl⟩

theorem tells_history (hp : h.Prints texts) (ht : s.Tame texts) (arguments : List String) :
    ∃ cs, BuiltinComplains h s arguments .history cs ∧ Tells texts s (s.history h).2 cs := by
  rw [history]
  cases he : History.entries h s.settings.historyFile s.system with
  | ok entries => exact ⟨_, .history he, tells_say hp ht _⟩
  | error f => exact ⟨_, .unread he, tells_report hp ht (.history f)⟩

theorem tells_assignAll (hp : h.Prints texts) (ht : s.Tame texts) (status : Nat)
    (arguments : List String) :
    ∃ cs, Misnamed arguments cs ∧ Tells texts s (s.assignAll h status arguments).2 cs := by
  fun_induction assignAll h s status arguments with
  | case1 s status => exact ⟨_, .nil, ht.tells_nothing rfl rfl⟩
  | case2 s status argument rest ha t ih =>
    have hr := tells_report hp ht (.identifier argument)
    obtain ⟨cs, hm, hc⟩ := ih hr.tame
    exact ⟨_, .unnamed ha hm, hr.trans hc⟩
  | case3 s status argument rest ha ih =>
    obtain ⟨cs, hm, hc⟩ := ih ht
    exact ⟨_, .named (by simp [ha]) (not_unsettable ha (by rintro _ _ ⟨⟩)) hm, hc⟩
  | case4 s status argument rest name value ha hs ih =>
    have hset := ht.tells_nothing
      (t := { s with environment := s.environment.set name value }) rfl rfl
    have hu : ¬ Unsettable argument := by
      refine not_unsettable ha ?_
      rintro _ _ ⟨⟩
      exact hs
    obtain ⟨cs, hm, hc⟩ := ih hset.tame
    exact ⟨_, .named (by simp [ha]) hu hm, hset.trans hc⟩
  | case5 s status argument rest name value ha hs =>
    have hu : Unsettable argument := unsettable_iff.mpr ⟨name, value, ha, hs⟩
    exact ⟨_, .broken hu, ht.tells_nothing rfl rfl⟩

theorem tells_exportVariables (hp : h.Prints texts) (ht : s.Tame texts)
    (arguments : List String) :
    ∃ cs, Misnamed arguments cs ∧ Tells texts s (s.exportVariables h arguments).2 cs := by
  rw [exportVariables]
  cases arguments with
  | nil => exact ⟨_, .nil, tells_say hp ht _⟩
  | cons argument rest => exact tells_assignAll hp ht 0 (argument :: rest)

theorem Wakes.tells (hw : s.Wakes h t) (hp : h.Prints texts) (ht : s.Tame texts) :
    Tells texts s t [] :=
  .nothing (congrArg texts hw.system_eq) (hw.tame hp.toSparesInWork ht)

/-- The work of an assistant leaves the complaints to the session. -/
theorem Assistant.Kept.tells_nothing {a b : Assistant σ} {system : σ}
    (hk : Assistant.Kept texts a s.system b system) (ha : a.service.Spares texts) :
    Tells texts s { s with assistant := .ready b, system } [] := by
  refine .nothing hk.view_eq ?_
  intro c hc
  obtain rfl := Availability.ready.inj hc
  exact hk.service.symm ▸ ha

theorem tells_withAssistant (hp : h.Prints texts) (ht : s.Tame texts) {text : String}
    (hb : text.isAllBlank = false) {acting : Bool}
    {act : Assistant σ → Session σ → Nat × Session σ}
    (hact : ∀ a t, a.service.Spares texts →
      ∃ cs, WorkComplains h a t text acting cs ∧ Tells texts t (act a t).2 cs) :
    ∃ cs, AssistantComplains h s text acting cs ∧
      Tells texts s (s.withAssistant h act).2 cs := by
  have hw := (wakes_wakeAssistant h s).tells hp ht
  rw [withAssistant]
  rcases ha : (s.wakeAssistant h).assistant with _ | a | reason
  · exact ⟨_, .broken hb ha, hw⟩
  · obtain ⟨cs, hc, ht⟩ := hact a _ (hw.tame a ha)
    exact ⟨_, .work hb ha hc, hw.trans ht⟩
  · exact ⟨_, .unavailable hb ha, hw.trans (tells_report hp hw.tame (.unavailable reason))⟩

theorem tells_call (hp : h.Prints texts) (ht : s.Tame texts) (request : String) :
    ∃ cs, AssistantComplains h s request true cs ∧ Tells texts s (s.call h request).2 cs := by
  rw [call]
  split
  case isTrue hb => exact ⟨_, .usage hb, tells_report hp ht (.usage true)⟩
  case isFalse hb =>
    refine tells_withAssistant hp ht (Bool.eq_false_iff.mpr hb) fun a t ha => ?_
    have hk := Errand.kept_carryOut (e := t.errand h request) hp.toSparesInWork ha t.system
    dsimp only
    rcases hx : (t.errand h request).carryOut h a t.system with ⟨⟨f | o, b⟩, system⟩
    · rw [hx] at hk
      have hn := Assistant.Kept.tells_nothing hk ha
      exact ⟨_, .failed (by rw [hx]), hn.trans (tells_report hp hn.tame (.assistant true f))⟩
    · rw [hx] at hk
      have hn := Assistant.Kept.tells_nothing hk ha
      dsimp only
      rw [announce]
      cases hv : o.verdict with
      | success => exact ⟨_, .fulfilled (by rw [hx]) hv, hn⟩
      | unresolved =>
        exact ⟨_, .unresolved (by rw [hx]) hv, hn.trans (tells_report hp hn.tame .unresolved)⟩
      | exhausted =>
        exact ⟨_, .exhausted (by rw [hx]) hv,
          hn.trans (tells_report hp hn.tame (.exhausted o.attempts))⟩

theorem tells_ask (hp : h.Prints texts) (ht : s.Tame texts) (question : String) :
    ∃ cs, AssistantComplains h s question false cs ∧ Tells texts s (s.ask h question).2 cs := by
  rw [ask]
  split
  case isTrue hb => exact ⟨_, .usage hb, tells_report hp ht (.usage false)⟩
  case isFalse hb =>
    refine tells_withAssistant hp ht (Bool.eq_false_iff.mpr hb) fun a t ha => ?_
    have hk := Assistant.kept_request (a := a.setActing false) ha question t.system
    dsimp only
    rcases hx : (a.setActing false).request question t.system with ⟨⟨f | reply, b⟩, system⟩
    · rw [hx] at hk
      have hn := Assistant.Kept.tells_nothing hk ha
      exact ⟨_, .unanswered (by rw [hx]),
        hn.trans (tells_report hp hn.tame (.assistant false (.request f)))⟩
    · rw [hx] at hk
      have hn := Assistant.Kept.tells_nothing hk ha
      exact ⟨_, .answered (by rw [hx]), hn.trans (tells_say hp hn.tame _)⟩

theorem tells_runBuiltin (hp : h.Prints texts) (ht : s.Tame texts) {b : Builtin}
    {arguments : List String} (script : ScriptRunner σ) (hb : b = .source → arguments = []) :
    ∃ cs, BuiltinComplains h s arguments b cs ∧
      Tells texts s (runBuiltin h script b arguments s).2 cs := by
  match b with
  | .cd => exact tells_changeDirectory hp ht arguments
  | .exit => exact tells_exit hp ht arguments
  | .help => exact ⟨_, .help, tells_say hp ht helpText⟩
  | .history => exact tells_history hp ht arguments
  | .export =>
    obtain ⟨cs, hm, hc⟩ := tells_exportVariables hp ht arguments
    exact ⟨cs, .misnamed hm, hc⟩
  | .source =>
    rw [hb rfl]
    exact ⟨_, .unnamed rfl, tells_report hp ht .unnamed⟩
  | .call =>
    obtain ⟨cs, ha, hc⟩ := tells_call hp ht (" ".intercalate arguments)
    exact ⟨cs, .call ha, hc⟩
  | .ask =>
    obtain ⟨cs, ha, hc⟩ := tells_ask hp ht (" ".intercalate arguments)
    exact ⟨cs, .ask ha, hc⟩

/-! ### Lines and scripts -/

theorem tells_runPipeline (hp : h.Prints texts) (ht : s.Tame texts) {p : Pipeline}
    (hb : builtinOf? p = none) (line : String) :
    ∃ cs, LineComplains h s (.ok (some p)) cs ∧
      Tells texts s (runPipeline h p line s).2 cs := by
  have hx := p.execute_spared hp.toSparesInWork s.environment s.directory line s.jobs s.system
  rw [runPipeline]
  rcases he : p.execute h s.environment s.directory line s.jobs s.system with
    ⟨⟨result, jobs⟩, system⟩
  rw [he] at hx
  have hn := ht.tells_nothing (t := { s with jobs, system }) hx rfl
  rcases result with f | l
  · exact ⟨_, .launch hb (by rw [he]), hn.trans (tells_report hp hn.tame (.launch f))⟩
  · refine ⟨_, .launched hb (by rw [he]), ?_⟩
    cases l with
    | foreground status => exact hn
    | background job pid => exact hn.trans (tells_say hp hn.tame _)

/-- A line that runs no script. -/
theorem tells_perform (hp : h.Prints texts) (ht : s.Tame texts) (script : ScriptRunner σ)
    (line : String) {parsed : Except SyntaxFault (Option Pipeline)}
    (hd : ∀ path, demand parsed ≠ .source path) :
    ∃ cs, LineComplains h s parsed cs ∧ Tells texts s (perform h script line parsed s).2 cs := by
  rcases parsed with f | _ | p
  · exact ⟨_, .faulty, tells_report hp ht (.faulty f)⟩
  · exact ⟨_, .empty, ht.tells_nothing rfl rfl⟩
  rcases hb : builtinOf? p with _ | ⟨b, arguments⟩
  · obtain ⟨cs, hl, hc⟩ := tells_runPipeline hp ht hb line
    rw [perform, hb]
    exact ⟨cs, hl, hc.of_eq rfl rfl⟩
  · have hsource : b = .source → arguments = [] := by
      rintro rfl
      cases arguments with
      | nil => rfl
      | cons path rest => exact absurd (by rw [demand, hb]) (hd path)
    obtain ⟨cs, hl, hc⟩ := tells_runBuiltin hp ht script hsource
    rw [perform, hb]
    exact ⟨cs, .builtin hb hl, hc.of_eq rfl rfl⟩

theorem Runs.tells (hp : h.Prints texts) {task : Task} {es : List Event} {n : Nat}
    (hr : Runs h task s es n t) (ht : s.Tame texts) :
    ∃ cs, Complains h task s cs ∧ Tells texts s t cs := by
  induction hr with
  | @plain line parsed s n s' hd hperf =>
    have hns (path : String) : demand parsed ≠ .source path := by simp [hd]
    obtain ⟨cs, hl, hc⟩ := tells_perform hp ht (runNested h) line hns
    rw [hperf] at hc
    exact ⟨cs, .line hns hl, hc⟩
  | @exit line parsed arguments s n s' hd he =>
    have hns (path : String) : demand parsed ≠ .source path := by simp [hd]
    obtain ⟨cs, hl, hc⟩ := tells_perform hp ht (runNested h) line hns
    rw [perform_of_exit hd, he] at hc
    exact ⟨cs, .line hns hl, hc⟩
  | source hd _ ih =>
    obtain ⟨cs, hf, hc⟩ := ih ht
    exact ⟨cs, .source hd hf, hc.of_eq rfl rfl⟩
  | missing hf => exact ⟨_, .missing hf, tells_report hp ht (.script _ _)⟩
  | found hf _ ih =>
    obtain ⟨cs, hs, hc⟩ := ih ht
    exact ⟨cs, .found hf hs, hc⟩
  | refused hl => exact ⟨_, .refused hl, tells_report hp ht (.nesting _)⟩
  | @script _ _ s _ _ _ hl _ ih =>
    have hd := ht.tells_nothing (t := { s with depth := s.depth + 1 }) rfl rfl
    obtain ⟨cs, hs, hc⟩ := ih hd.tame
    have hin := hd.trans hc
    exact ⟨cs, .script hl hs, hin.of_eq rfl rfl⟩
  | finished => exact ⟨_, .finished, ht.tells_nothing rfl rfl⟩
  | cut => exact ⟨_, .cut, ht.tells_nothing rfl rfl⟩
  | idle hi _ ih =>
    obtain ⟨cs, hs, hc⟩ := ih ht
    exact ⟨cs, .idle hi hs, hc⟩
  | last hi hr ho ih =>
    obtain ⟨cs, hl, hc⟩ := ih ht
    exact ⟨cs, .last hi hr ho hl, hc⟩
  | next hi hr ho _ ih ih' =>
    obtain ⟨cs, hl, hc⟩ := ih ht
    obtain ⟨cs', hn, hc'⟩ := ih' hc.tame
    exact ⟨cs ++ cs', .next hi hr ho hl hn, hc.trans hc'⟩

/-- What the execution of a line adds to the error output: what is complained about in its course,
and that is certain, in order, each complaint once with the shell's mark in front and a newline
behind. These are so many lines of their own if and only if none of the complaints quotes a text
with a newline. -/
theorem diagnostics_lineByLine_iff (h : Host σ) (s : Session σ) (line : String)
    (input : LineSource) :
    let task := Task.line line (s.parse line input).value
    let written := (s.recorded.execute h.recorded line input).2.system.diagnostics
    ∃ cs : List Complaint,
      (∀ cs', Complains h.recorded task s.recorded cs' ↔ cs' = cs) ∧
      written = cs.map Complaint.line ∧
      (Complaint.LineByLine written ↔ ∀ c ∈ cs, '\n' ∉ c.quoted.toList) := by
  intro task written
  obtain ⟨es, hr⟩ := exists_runs h.recorded task s.recorded
  have ht : s.recorded.Tame Recorded.diagnostics :=
    s.tame_recorded_of Service.spares_diagnostics
  obtain ⟨cs, hc, htold⟩ := hr.tells h.prints_diagnostics ht
  have hw : written = cs.map Complaint.line := htold.told
  refine ⟨cs, fun cs' => ⟨fun hc' => hc'.unique hc, ?_⟩, hw, ?_⟩
  · rintro rfl
    exact hc
  · rw [hw, Complaint.lineByLine_iff]

/-- An argument of `exit` with a newline makes two lines of one complaint. -/
theorem exit_diagnostic_of_two_lines :
    let s : Session Machine.Desk :=
      { system := .onDisk .empty Machine.Disk.root true none
        settings := .ofPreferences {} none "/root/.ghsh"
        environment := {}
        directory := "/root" }
    let written := (s.recorded.execute Machine.Desk.host.recorded
      "exit 'a\nb'" []).2.system.diagnostics
    written = ["ghsh: exit: a\nb: numeric argument required\n"] ∧
      ¬ Complaint.LineByLine written := by
  intro s written
  have hw : written = [Complaint.status "a\nb"].map Complaint.line := by decide +kernel
  refine ⟨by rw [hw]; decide +kernel, ?_⟩
  rw [hw, Complaint.lineByLine_iff]
  decide

end Session

end AssistedShell
