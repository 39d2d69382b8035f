import AssistedShell.Proofs.Session.Breakdown
import AssistedShell.Proofs.Session.Complaint

/-! The grounds of complaints. What goes wrong in a line, and what is complained
about then, is told from what the system answers; a task is complained about line
by line, the lines of scripts in the place of the line that runs them. There is
exactly one list of complaints that a task gives grounds for. -/

namespace AssistedShell

variable {σ : Type}

/-- What comes of a pipeline does not depend on the text of its command line. -/
theorem Pipeline.execute_result (h : Host σ) (p : Pipeline) (env : Environment) (cwd : String)
    (cmdline cmdline' : String) (jobs : JobTable) (s : σ) :
    (p.execute h env cwd cmdline jobs s).1.1 = (p.execute h env cwd cmdline' jobs s).1.1 := by
  rw [execute, execute]
  rcases Launch.prepareAll h env cwd p.planned s with ⟨f | stages, t⟩
  · rfl
  dsimp only
  rcases Launch.start h env stages none t with ⟨⟨pids, _ | f⟩, u⟩
  · dsimp only
    split
    · rfl
    · rfl
  · rfl

namespace Session

/-! ### Who complains about what -/

/-- What is complained about after the work of an assistant: for `call`, whose commands are acted
on, or for `ask`. -/
inductive WorkComplains (h : Host σ) (a : Assistant σ) (s : Session σ) (text : String) :
    Bool → List Complaint → Prop where
  | fulfilled {o} : ((s.errand h text).carryOut h a s.system).1.1 = .ok o →
      o.verdict = .success → WorkComplains h a s text true []
  | unresolved {o} : ((s.errand h text).carryOut h a s.system).1.1 = .ok o →
      o.verdict = .unresolved → WorkComplains h a s text true [.unresolved]
  | exhausted {o} : ((s.errand h text).carryOut h a s.system).1.1 = .ok o →
      o.verdict = .exhausted → WorkComplains h a s text true [.exhausted o.attempts]
  | failed {f} : ((s.errand h text).carryOut h a s.system).1.1 = .error f →
      WorkComplains h a s text true [.assistant true f]
  | answered {reply} : ((a.setActing false).request text s.system).1.1 = .ok reply →
      WorkComplains h a s text false []
  | unanswered {f} : ((a.setActing false).request text s.system).1.1 = .error f →
      WorkComplains h a s text false [.assistant false (.request f)]

/-- What `call` or `ask` complains about. -/
inductive AssistantComplains (h : Host σ) (s : Session σ) (text : String) (acting : Bool) :
    List Complaint → Prop where
  | usage : text.isAllBlank = true → AssistantComplains h s text acting [.usage acting]
  /-- The first use of the assistant breaks the shell down. -/
  | broken : text.isAllBlank = false → (s.wakeAssistant h).assistant = .untried →
      AssistantComplains h s text acting []
  | unavailable {reason} : text.isAllBlank = false →
      (s.wakeAssistant h).assistant = .unavailable reason →
      AssistantComplains h s text acting [.unavailable reason]
  | work {a cs} : text.isAllBlank = false → (s.wakeAssistant h).assistant = .ready a →
      WorkComplains h a (s.wakeAssistant h) text acting cs →
      AssistantComplains h s text acting cs

/-- What `export` complains about: each argument without a name that a variable can be given, up to
one that breaks the shell down. -/
inductive Misnamed : List String → List Complaint → Prop where
  | nil : Misnamed [] []
  | unnamed {argument rest cs} : Assignment.ofArgument argument = .invalid → Misnamed rest cs →
      Misnamed (argument :: rest) (.identifier argument :: cs)
  | named {argument rest cs} : Assignment.ofArgument argument ≠ .invalid →
      ¬ Unsettable argument → Misnamed rest cs → Misnamed (argument :: rest) cs
  | broken {argument rest} : Unsettable argument → Misnamed (argument :: rest) []

/-- What a built-in command complains about that runs no script. -/
inductive BuiltinComplains (h : Host σ) (s : Session σ) (arguments : List String) :
    Builtin → List Complaint → Prop where
  | homeless : destination? (s.home? h) arguments = none →
      BuiltinComplains h s arguments .cd [.homeless]
  | entering {dir f} : destination? (s.home? h) arguments = some dir →
      (h.changeDirectory (joinPath s.directory dir) s.system).1 = .error f →
      BuiltinComplains h s arguments .cd [.entering (joinPath s.directory dir) f]
  | locating {dir f} : destination? (s.home? h) arguments = some dir →
      (h.changeDirectory (joinPath s.directory dir) s.system).1 = .ok () →
      h.directory (h.changeDirectory (joinPath s.directory dir) s.system).2 = .error f →
      BuiltinComplains h s arguments .cd [.locating f]
  | located {dir directory} : destination? (s.home? h) arguments = some dir →
      (h.changeDirectory (joinPath s.directory dir) s.system).1 = .ok () →
      h.directory (h.changeDirectory (joinPath s.directory dir) s.system).2 = .ok directory →
      BuiltinComplains h s arguments .cd []
  | status {argument rest} : arguments = argument :: rest → statusOf? argument = none →
      BuiltinComplains h s arguments .exit [.status argument]
  | exit : (∀ argument ∈ arguments.head?, statusOf? argument ≠ none) →
      BuiltinComplains h s arguments .exit []
  | help : BuiltinComplains h s arguments .help []
  | unread {f} : History.entries h s.settings.historyFile s.system = .error f →
      BuiltinComplains h s arguments .history [.history f]
  | history {entries} : History.entries h s.settings.historyFile s.system = .ok entries →
      BuiltinComplains h s arguments .history []
  | misnamed {cs} : Misnamed arguments cs → BuiltinComplains h s arguments .export cs
  | unnamed : arguments = [] → BuiltinComplains h s arguments .source [.unnamed]
  | call {cs} : AssistantComplains h s (" ".intercalate arguments) true cs →
      BuiltinComplains h s arguments .call cs
  | ask {cs} : AssistantComplains h s (" ".intercalate arguments) false cs →
      BuiltinComplains h s arguments .ask cs

/-- What a line complains about that runs no script. -/
inductive LineComplains (h : Host σ) (s : Session σ) :
    Except SyntaxFault (Option Pipeline) → List Complaint → Prop where
  | faulty {f} : LineComplains h s (.error f) [.faulty f]
  | empty : LineComplains h s (.ok none) []
  | launch {p line f} : builtinOf? p = none →
      (p.execute h s.environment s.directory line s.jobs s.system).1.1 = .error f →
      LineComplains h s (.ok (some p)) [.launch f]
  | launched {p line l} : builtinOf? p = none →
      (p.execute h s.environment s.directory line s.jobs s.system).1.1 = .ok l →
      LineComplains h s (.ok (some p)) []
  | builtin {p b arguments cs} : builtinOf? p = some (b, arguments) →
      BuiltinComplains h s arguments b cs → LineComplains h s (.ok (some p)) cs

/-- What is complained about in the course of a task, in order. -/
inductive Complains (h : Host σ) : Task → Session σ → List Complaint → Prop where
  | line {text parsed s cs} : (∀ path, demand parsed ≠ .source path) →
      LineComplains h s parsed cs → Complains h (.line text parsed) s cs
  | source {text parsed path s cs} : demand parsed = .source path →
      Complains h (.file path) s cs → Complains h (.line text parsed) s cs
  | missing {path s f} : h.readText s.system (joinPath s.directory path) = .error f →
      Complains h (.file path) s [.script (joinPath s.directory path) f]
  | found {path s text cs} : h.readText s.system (joinPath s.directory path) = .ok text →
      Complains h (.script (joinPath s.directory path) text) s cs → Complains h (.file path) s cs
  | refused {path text s} : nestingLimit ≤ s.depth →
      Complains h (.script path text) s [.nesting path]
  | script {path text s cs} : s.depth < nestingLimit →
      Complains h (.lines (text.textLines.map some) 0) { s with depth := s.depth + 1 } cs →
      Complains h (.script path text) s cs
  | finished {n s} : Complains h (.lines [] n) s []
  | cut {rest n s} : Complains h (.lines (none :: rest) n) s []
  | idle {line rest n s cs} : isIdle line = true → Complains h (.lines rest n) s cs →
      Complains h (.lines (some line :: rest) n) s cs
  | last {line rest n s es m s' cs} : isIdle line = false →
      Runs h (.line line (s.parse line rest).value) s es m s' → s'.isOver = true →
      Complains h (.line line (s.parse line rest).value) s cs →
      Complains h (.lines (some line :: rest) n) s cs
  | next {line rest n s es m s' cs cs'} : isIdle line = false →
      Runs h (.line line (s.parse line rest).value) s es m s' → s'.isOver = false →
      Complains h (.line line (s.parse line rest).value) s cs →
      Complains h (.lines (s.parse line rest).rest m) s' cs' →
      Complains h (.lines (some line :: rest) n) s (cs ++ cs')

/-! ### The grounds tell the complaints -/

variable {h : Host σ} {s : Session σ} {cs cs' : List Complaint}

theorem WorkComplains.unique {a : Assistant σ} {text : String} {acting : Bool}
    (hc : WorkComplains h a s text acting cs) (hc' : WorkComplains h a s text acting cs') :
    cs = cs' := by
  cases hc <;> cases hc' <;> simp_all

theorem AssistantComplains.unique {text : String} {acting : Bool}
    (hc : AssistantComplains h s text acting cs) (hc' : AssistantComplains h s text acting cs') :
    cs = cs' := by
  cases hc with
  | work _ ha hw =>
    cases hc' with
    | work _ ha' hw' =>
      obtain rfl := Availability.ready.inj (ha.symm.trans ha')
      exact hw.unique hw'
    | _ => simp_all
  | _ => cases hc' <;> simp_all

theorem Misnamed.unique {arguments : List String} (hc : Misnamed arguments cs)
    (hc' : Misnamed arguments cs') : cs = cs' := by
  have hu {argument : String} (ha : Assignment.ofArgument argument = .invalid) :
      ¬ Unsettable argument := not_unsettable ha (by rintro _ _ ⟨⟩)
  induction hc generalizing cs' with
  | nil =>
    cases hc'
    rfl
  | unnamed ha _ ih =>
    cases hc' with
    | unnamed _ hr => rw [ih hr]
    | named hn => exact absurd ha hn
    | broken hb => exact absurd hb (hu ha)
  | named hn hs _ ih =>
    cases hc' with
    | unnamed ha => exact absurd ha hn
    | named _ _ hr => exact ih hr
    | broken hb => exact absurd hb hs
  | broken hb =>
    cases hc' with
    | unnamed ha => exact absurd hb (hu ha)
    | named _ hs => exact absurd hb hs
    | broken => rfl

theorem BuiltinComplains.unique {b : Builtin} {arguments : List String}
    (hc : BuiltinComplains h s arguments b cs) (hc' : BuiltinComplains h s arguments b cs') :
    cs = cs' := by
  cases hc with
  | misnamed hm =>
    cases hc' with
    | misnamed hm' => exact hm.unique hm'
  | call ha =>
    cases hc' with
    | call ha' => exact ha.unique ha'
  | ask ha =>
    cases hc' with
    | ask ha' => exact ha.unique ha'
  | _ => cases hc' <;> simp_all

theorem LineComplains.unique {parsed : Except SyntaxFault (Option Pipeline)}
    (hc : LineComplains h s parsed cs) (hc' : LineComplains h s parsed cs') : cs = cs' := by
  have hx (p : Pipeline) (line line' : String) :=
    p.execute_result h s.environment s.directory line line' s.jobs s.system
  cases hc with
  | faulty | empty =>
    cases hc'
    rfl
  | launch hb he =>
    cases hc' with
    | launch _ he' =>
      obtain rfl := Except.error.inj (he.symm.trans ((hx ..).trans he'))
      rfl
    | launched _ he' => cases he.symm.trans ((hx ..).trans he')
    | builtin hb' => cases hb.symm.trans hb'
  | launched hb he =>
    cases hc' with
    | launch _ he' => cases he.symm.trans ((hx ..).trans he')
    | launched => rfl
    | builtin hb' => cases hb.symm.trans hb'
  | builtin hb ha =>
    cases hc' with
    | launch hb' | launched hb' => cases hb.symm.trans hb'
    | builtin hb' ha' =>
      obtain ⟨rfl, rfl⟩ := Prod.mk.inj (Option.some.inj (hb.symm.trans hb'))
      exact ha.unique ha'

theorem Complains.unique {task : Task} (hc : Complains h task s cs)
    (hc' : Complains h task s cs') : cs = cs' := by
  induction hc generalizing cs' with
  | line hd hl =>
    cases hc' with
    | line _ hl' => exact hl.unique hl'
    | source hd' => exact absurd hd' (hd _)
  | source hd _ ih =>
    cases hc' with
    | line hd' => exact absurd hd (hd' _)
    | source hd' hf =>
      obtain rfl := Demand.source.inj (hd.symm.trans hd')
      exact ih hf
  | missing ht =>
    cases hc' with
    | missing ht' =>
      obtain rfl := Except.error.inj (ht.symm.trans ht')
      rfl
    | found ht' => cases ht.symm.trans ht'
  | found ht _ ih =>
    cases hc' with
    | missing ht' => cases ht.symm.trans ht'
    | found ht' hs =>
      obtain rfl := Except.ok.inj (ht.symm.trans ht')
      exact ih hs
  | refused hl =>
    cases hc' with
    | refused => rfl
    | script hl' => exact absurd hl (Nat.not_le.mpr hl')
  | script hl _ ih =>
    cases hc' with
    | refused hl' => exact absurd hl' (Nat.not_le.mpr hl)
    | script _ hs => exact ih hs
  | finished | cut =>
    cases hc'
    rfl
  | idle hi _ ih =>
    cases hc' with
    | idle _ hr => exact ih hr
    | last hi' | next hi' => cases hi.symm.trans hi'
  | last hi hr ho _ ih =>
    cases hc' with
    | idle hi' => cases hi.symm.trans hi'
    | last _ _ _ hl => exact ih hl
    | next _ hr' ho' =>
      obtain ⟨-, -, rfl⟩ := hr.unique hr'
      cases ho.symm.trans ho'
  | next hi hr ho _ _ ih ih' =>
    cases hc' with
    | idle hi' => cases hi.symm.trans hi'
    | last _ hr' ho' =>
      obtain ⟨-, -, rfl⟩ := hr.unique hr'
      cases ho.symm.trans ho'
    | next _ hr' _ hl hn =>
      obtain ⟨-, rfl, rfl⟩ := hr.unique hr'
      rw [ih hl, ih' hn]

end Session

end AssistedShell
