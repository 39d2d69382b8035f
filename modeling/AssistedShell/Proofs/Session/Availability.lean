import AssistedShell.Proofs.Assistant.Growth
import AssistedShell.Proofs.Session.Deeds

/-! Whether a session has its assistant is decided once. The first `call` or
`ask` with a prompt decides; nothing before it does, and nothing after it
changes the decision, whatever the lines in between make of the environment.
Without an assistant each such line is refused for the same reason, and with
one they all speak to the same assistant. -/

namespace AssistedShell

variable {σ : Type}

/-- What is available on the system that records. -/
def Availability.recorded : Availability σ → Availability (Recorded σ)
  | .untried => .untried
  | .ready a => .ready a.recorded
  | .unavailable reason => .unavailable reason

namespace Session

/-! ### Appeals -/

/-- What a line, if it is a `call` or an `ask`, says to the assistant. -/
def prompt? : Except SyntaxFault (Option Pipeline) → Option String
  | .ok (some p) =>
    match builtinOf? p with
    | some (.call, arguments) | some (.ask, arguments) => some (" ".intercalate arguments)
    | _ => none
  | _ => none

/-- Whether a line appeals to the assistant: it has a prompt for it that is not blank. -/
def Deed.appeals (x : Deed σ) : Bool := (prompt? x.parsed).any fun text => !text.isAllBlank

/-- The session on the system that records, with some calls recorded. -/
def recording (s : Session σ) (calls : List Call) : Session (Recorded σ) :=
  { s.recorded with system := ⟨s.system, calls⟩ }

/-- The same line in the session on the system that records. -/
def Deed.recorded (x : Deed σ) : Deed (Recorded σ) := ⟨x.line, x.parsed, x.before.recorded⟩

/-- The same line after the assistant was looked for. -/
def Deed.awake (h : Host σ) (x : Deed σ) : Deed σ := { x with before := x.before.wakeAssistant h }

/-! ### What becomes of a line -/

/-- A line that decides nothing, since it is no appeal. -/
structure Deed.Undecided (h : Host σ) (x : Deed σ) : Prop where
  appeals : x.appeals = false
  before : x.before.assistant = .untried
  after : (x.result h).2.assistant = .untried

/-- An appeal that is refused: it has the status 1 and changes nothing, and the system is called
once, to write a diagnostic with the reason. -/
structure Deed.Refused (h : Host σ) (reason : String) (x : Deed σ) : Prop where
  status : (x.result h).1 = 1
  after : (x.result h).2 =
    { x.before.report h ("AI mode unavailable: " ++ reason) with
      assistant := .unavailable reason, lastStatus := 1 }
  calls : ∃ answer, x.recorded.result h.recorded =
    (1, (x.result h).2.recording
      [.writeErr ("ghsh: " ++ ("AI mode unavailable: " ++ reason) ++ "\n") answer])

/-- A line in a session without an assistant. If it is an appeal, it is refused. -/
structure Deed.Deprived (h : Host σ) (reason : String) (x : Deed σ) : Prop where
  before : x.before.assistant = .unavailable reason
  after : (x.result h).2.assistant = .unavailable reason
  refused : x.appeals = true → x.Refused h reason

/-- An appeal that the assistant hears. What is said to it, and all else that it is told, is read
off the calls of the line. -/
structure Deed.Served (h : Host σ) (a : Assistant σ) (x : Deed σ) (b : Assistant σ) : Prop where
  before : (x.before.wakeAssistant h).assistant = .ready a
  after : (x.result h).2.assistant = .ready b
  calls : ∃ calls, a.Grows calls b ∧
    (x.awake h).recorded.result h.recorded = ((x.result h).1, (x.result h).2.recording calls)

/-- Lines in a session that has its assistant: the appeals speak to it one after another, and all
others leave it as it is. -/
inductive Serves (h : Host σ) : Assistant σ → List (Deed σ) → Assistant σ → Prop where
  | done {a} : Serves h a [] a
  | aside {a x xs b} : x.appeals = false → x.before.assistant = .ready a →
      (x.result h).2.assistant = .ready a → Serves h a xs b → Serves h a (x :: xs) b
  | appeal {a x xs b c} : x.appeals = true → x.before.assistant = .ready a → x.Served h a b →
      Serves h b xs c → Serves h a (x :: xs) c

/-- What the first appeal decides for the lines after it and for the session after them. -/
inductive Deed.Decides (h : Host σ) (x : Deed σ) : List (Deed σ) → Session σ → Prop where
  | unavailable {reason rest t} : x.before.Lacks h reason → x.Refused h reason →
      (∀ y ∈ rest, y.Deprived h reason) → t.assistant = .unavailable reason → x.Decides h rest t
  | ready {key b c rest t} : x.before.Equipped h key → x.Served h (x.before.newAssistant h key) b →
      Serves h b rest c → t.assistant = .ready c → b.Extended c → x.Decides h rest t
  /-- The shell breaks down over the room to be set aside. -/
  | broken {t} : x.before.Overreaches h → t.assistant = .untried → t.crashed = true →
      x.Decides h [] t

/-! ### Lines that are no appeals -/

section
variable {h : Host σ} {s : Session σ} {parsed : Except SyntaxFault (Option Pipeline)}

theorem assistant_assignAll (s : Session σ) (status : Nat) (arguments : List String) :
    (s.assignAll h status arguments).2.assistant = s.assistant := by
  fun_induction assignAll h s status arguments with
  | case1 | case5 => rfl
  | case2 _ _ _ _ _ _ ih | case3 _ _ _ _ _ ih | case4 _ _ _ _ _ _ _ _ ih => exact ih

theorem assistant_exportVariables (s : Session σ) (arguments : List String) :
    (s.exportVariables h arguments).2.assistant = s.assistant := by
  rw [exportVariables]
  split
  · rfl
  · exact assistant_assignAll s 0 arguments

theorem assistant_runBuiltin {b : Builtin} {arguments : List String} (script : ScriptRunner σ)
    (hs : b = .source → arguments = [])
    (ha : b = .call ∨ b = .ask → (" ".intercalate arguments).isAllBlank = true) :
    (runBuiltin h script b arguments s).2.assistant = s.assistant := by
  match b with
  | .cd =>
    obtain ⟨system, directory, ht⟩ := exists_changeDirectory h s arguments
    rw [runBuiltin, ht]
  | .exit =>
    rcases he : s.exit h arguments with ⟨n, t⟩
    obtain ⟨system, rfl⟩ := exit_snd h he
    rw [runBuiltin, he]
  | .help => rfl
  | .history =>
    obtain ⟨system, ht⟩ := exists_history h s
    rw [runBuiltin, ht]
  | .export => exact assistant_exportVariables s arguments
  | .source =>
    rw [hs rfl]
    rfl
  | .call =>
    rw [runBuiltin, call, if_pos (ha (.inl rfl))]
    rfl
  | .ask =>
    rw [runBuiltin, ask, if_pos (ha (.inr rfl))]
    rfl

theorem assistant_runPipeline (p : Pipeline) (line : String) (s : Session σ) :
    (runPipeline h p line s).2.assistant = s.assistant := by
  obtain ⟨jobs, system, ht⟩ := exists_runPipeline h p line s
  rw [ht]

theorem source_of_demand {p : Pipeline} {b : Builtin} {arguments : List String}
    (hd : ∀ path, demand (.ok (some p)) ≠ .source path) (hb : builtinOf? p = some (b, arguments)) :
    b = .source → arguments = [] := by
  rintro rfl
  cases arguments with
  | nil => rfl
  | cons path rest => exact absurd (by rw [demand, hb]) (hd path)

/-- A line that is no appeal leaves the assistant as it is. -/
theorem Deed.assistant_eq {x : Deed σ} (hd : ∀ path, demand x.parsed ≠ .source path)
    (hx : x.appeals = false) : (x.result h).2.assistant = x.before.assistant := by
  rcases x with ⟨line, f | _ | p, s⟩
  · rfl
  · rfl
  rw [result, Task.result, perform]
  rcases hb : builtinOf? p with _ | ⟨b, arguments⟩
  · exact assistant_runPipeline p line s
  · refine assistant_runBuiltin (runNested h) (source_of_demand hd hb) fun ha => ?_
    rw [appeals, prompt?, hb] at hx
    rcases ha with rfl | rfl
    · simpa using hx
    · simpa using hx

/-! ### Appeals with an assistant -/

end

/-- What `call` does with the assistant. -/
def carry (h : Host σ) (request : String) (a : Assistant σ) (s : Session σ) : Nat × Session σ :=
  let ((result, a), system) := (s.errand h request).carryOut h a s.system
  let s := { s with assistant := .ready a, system }
  match result with
  | .ok outcome => (outcome.status, s.announce h outcome)
  | .error f => (1, s.report h ("call: " ++ f.message))

/-- What `ask` does with the assistant. -/
def inquire (h : Host σ) (question : String) (a : Assistant σ) (s : Session σ) :
    Nat × Session σ :=
  let ((result, a), system) := (a.setActing false).request question s.system
  let s := { s with assistant := .ready a, system }
  match result with
  | .ok reply => (0, s.say h (reply.trimBlankEnd ++ "\n"))
  | .error f => (1, s.report h ("ask: " ++ (AssistantFault.request f).message))

/-- Whether what is done with an assistant makes it grow along the calls that are recorded. -/
def Acts (act : Assistant σ → Session σ → Nat × Session σ)
    (act' : Assistant (Recorded σ) → Session (Recorded σ) → Nat × Session (Recorded σ)) : Prop :=
  ∀ a s, ∃ b calls, a.Grows calls b ∧ (act a s).2.assistant = .ready b ∧
    act' a.recorded s.recorded = ((act a s).1, (act a s).2.recording calls)

section
variable {h : Host σ} {s : Session σ} {x : Deed σ} {reason text : String}

theorem call_eq (ht : text.isAllBlank = false) (s : Session σ) :
    s.call h text = s.withAssistant h (carry h text) := by
  rw [call, if_neg (Bool.eq_false_iff.mp ht)]
  rfl

theorem ask_eq (ht : text.isAllBlank = false) (s : Session σ) :
    s.ask h text = s.withAssistant h (inquire h text) := by
  rw [ask, if_neg (Bool.eq_false_iff.mp ht)]
  rfl

theorem assistant_announce (s : Session σ) (o : Outcome) :
    (s.announce h o).assistant = s.assistant := by
  obtain ⟨system, ht⟩ := exists_announce h s o
  rw [ht]

/-- The end of the work on a request asks nothing of the assistant. -/
theorem announce_recording (s : Session σ) (calls : List Call) (o : Outcome) :
    ∃ calls', (∀ {a b : Assistant σ}, a.Grows calls b → a.Grows calls' b) ∧
      (s.recording calls).announce h.recorded o = (s.announce h o).recording calls' := by
  rw [announce, announce]
  cases o.verdict with
  | success => exact ⟨calls, id, rfl⟩
  | unresolved | exhausted => exact ⟨_, fun hg => hg.passed rfl, rfl⟩

theorem acts_carry (h : Host σ) (request : String) :
    Acts (carry h request) (carry h.recorded request) := by
  intro a s
  obtain ⟨calls, hg, hc⟩ := Errand.carryOut_grown (e := s.errand h request) h a s.system []
  -- the errand is that of the recorded session: the record does not tell where the home is
  have hc' : (s.recorded.errand h.recorded request).carryOut h.recorded a.recorded
      s.recorded.system = _ := hc
  rw [carry, carry, hc']
  generalize (s.errand h request).carryOut h a s.system = r at hg ⊢
  rcases r with ⟨⟨f | outcome, b⟩, system⟩
  · exact ⟨b, _, hg.passed rfl, rfl, rfl⟩
  · obtain ⟨calls', hg', hr⟩ :=
      announce_recording (h := h) { s with assistant := .ready b, system } calls outcome
    exact ⟨b, calls', hg' hg, assistant_announce _ outcome, congrArg (Prod.mk outcome.status) hr⟩

theorem acts_inquire (h : Host σ) (question : String) :
    Acts (inquire h question) (inquire h.recorded question) := by
  intro a s
  obtain ⟨calls, hg, hc⟩ := Assistant.request_grown (a.setActing false) question s.system []
  have hc' : (a.recorded.setActing false).request question s.recorded.system = _ := hc
  have ha : a.Grows calls _ := (Assistant.Grows.start.turned false).trans hg
  rw [inquire, inquire, hc']
  generalize (a.setActing false).request question s.system = r at ha ⊢
  rcases r with ⟨⟨f | reply, b⟩, system⟩
  · exact ⟨b, _, ha.passed rfl, rfl, rfl⟩
  · exact ⟨b, _, ha.passed rfl, rfl, rfl⟩

/-- The end of a line: its status is the last one. -/
def closing (r : Nat × Session σ) : Nat × Session σ := (r.1, { r.2 with lastStatus := r.1 })

/-- What an appeal does with the assistant, on a system and on the one that records. -/
theorem Deed.exists_acts (h : Host σ) (hx : x.appeals = true) : ∃ act act', Acts act act' ∧
    (∀ s : Session σ, Deed.result h { x with before := s } = closing (s.withAssistant h act)) ∧
    ∀ s : Session (Recorded σ),
      Deed.result h.recorded ⟨x.line, x.parsed, s⟩ = closing (s.withAssistant h.recorded act') := by
  rcases x with ⟨line, f | _ | p, s⟩
  · cases hx
  · cases hx
  rw [appeals, prompt?] at hx
  rcases hb : builtinOf? p with _ | ⟨b, arguments⟩
  · rw [hb] at hx
    cases hx
  rw [hb] at hx
  match b with
  | .call =>
    have ht : (" ".intercalate arguments).isAllBlank = false := by simpa using hx
    refine ⟨_, _, acts_carry h (" ".intercalate arguments), fun s => ?_, fun s => ?_⟩
    all_goals
      rw [← call_eq ht, Deed.result, Task.result, perform, hb]
      rfl
  | .ask =>
    have ht : (" ".intercalate arguments).isAllBlank = false := by simpa using hx
    refine ⟨_, _, acts_inquire h (" ".intercalate arguments), fun s => ?_, fun s => ?_⟩
    all_goals
      rw [← ask_eq ht, Deed.result, Task.result, perform, hb]
      rfl
  | .cd | .exit | .help | .history | .export | .source => cases hx

/-! ### One appeal -/

theorem wakeAssistant_of_unavailable (hs : s.assistant = .unavailable reason) :
    s.wakeAssistant h = { s with assistant := .unavailable reason } := by
  rw [wakeAssistant_of_settled (by rw [hs]; exact nofun), ← hs]

theorem wakeAssistant_of_ready {a : Assistant σ} (hs : s.assistant = .ready a) :
    s.wakeAssistant h = s := wakeAssistant_of_settled (by rw [hs]; exact nofun)

/-- What a session needs is not recorded. -/
theorem Lacks.recorded (hl : s.Lacks h reason) : s.recorded.Lacks h.recorded reason := by
  cases hl with
  | key hk => exact .key hk
  | client hk hc => exact .client hk hc

theorem assistant_recorded {v : Availability σ} (hs : s.assistant = v) :
    s.recorded.assistant = v.recorded := by
  subst hs
  rfl

variable {act : Assistant σ → Session σ → Nat × Session σ}

theorem withAssistant_of_unavailable
    (hw : s.wakeAssistant h = { s with assistant := .unavailable reason }) :
    s.withAssistant h act = (1, { s with assistant := .unavailable reason }.report h
      ("AI mode unavailable: " ++ reason)) := by
  rw [withAssistant, hw]

theorem withAssistant_of_ready {a : Assistant σ} (hw : (s.wakeAssistant h).assistant = .ready a) :
    s.withAssistant h act = act a (s.wakeAssistant h) := by
  rw [withAssistant, hw]

theorem Deed.refused_of_wake (hx : x.appeals = true)
    (hw : x.before.wakeAssistant h = { x.before with assistant := .unavailable reason })
    (hw' : x.before.recorded.wakeAssistant h.recorded =
      { x.before.recorded with assistant := .unavailable reason }) : x.Refused h reason := by
  obtain ⟨act, act', -, hr, hr'⟩ := exists_acts h hx
  have hres : x.result h = closing (x.before.withAssistant h act) := hr x.before
  have hrec : x.recorded.result h.recorded =
      closing (x.before.recorded.withAssistant h.recorded act') := hr' x.before.recorded
  rw [withAssistant_of_unavailable hw] at hres
  rw [withAssistant_of_unavailable hw'] at hrec
  constructor
  case status => rw [hres, closing]
  case after =>
    rw [hres]
    rfl
  case calls =>
    rw [hrec, hres]
    exact ⟨_, rfl⟩

/-- Once there is no assistant, an appeal is refused for the same reason. -/
theorem Deed.refused (hx : x.appeals = true) (hb : x.before.assistant = .unavailable reason) :
    x.Refused h reason :=
  refused_of_wake hx (wakeAssistant_of_unavailable hb)
    (wakeAssistant_of_unavailable (assistant_recorded hb))

/-- Once there is an assistant, it hears an appeal. -/
theorem Deed.exists_served {a : Assistant σ} (hx : x.appeals = true)
    (hw : (x.before.wakeAssistant h).assistant = .ready a) : ∃ b, x.Served h a b := by
  obtain ⟨act, act', hact, hr, hr'⟩ := exists_acts h hx
  have hres : x.result h = closing (x.before.withAssistant h act) := hr x.before
  rw [withAssistant_of_ready hw] at hres
  -- once there is an assistant, to look for it changes nothing
  have hw' := wakeAssistant_of_ready (h := h.recorded) (assistant_recorded hw)
  have hrec : (x.awake h).recorded.result h.recorded =
      closing ((x.before.wakeAssistant h).recorded.withAssistant h.recorded act') :=
    hr' (x.before.wakeAssistant h).recorded
  rw [withAssistant_of_ready (by rw [hw']; exact assistant_recorded hw), hw'] at hrec
  obtain ⟨b, calls, hg, hb, ha⟩ := hact a (x.before.wakeAssistant h)
  rw [ha] at hrec
  refine ⟨b, hw, ?_, calls, hg, ?_⟩
  · rw [hres]
    exact hb
  · rw [hrec, hres]
    rfl

/-! ### One line after another -/

variable {t : Session σ} {xs : List (Deed σ)}

theorem Succession.deprived (hs : Succession h s xs t) (ha : s.assistant = .unavailable reason) :
    t.assistant = .unavailable reason ∧ ∀ x ∈ xs, x.Deprived h reason := by
  induction hs with
  | done hl => exact ⟨hl.assistant.trans ha, List.forall_mem_nil _⟩
  | @deed s x xs t hl hd _ _ ih =>
    have hb : x.before.assistant = .unavailable reason := hl.assistant.trans ha
    have hx : x.Deprived h reason := by
      refine ⟨hb, ?_, fun hx => Deed.refused hx hb⟩
      cases hx : x.appeals with
      | false => rw [Deed.assistant_eq hd hx, hb]
      | true => rw [(Deed.refused hx hb).after]
    obtain ⟨ht, hxs⟩ := ih hx.after
    exact ⟨ht, List.forall_mem_cons.mpr ⟨hx, hxs⟩⟩

theorem Succession.exists_serves {a : Assistant σ} (hs : Succession h s xs t)
    (ha : s.assistant = .ready a) : ∃ b, t.assistant = .ready b ∧ Serves h a xs b := by
  induction hs generalizing a with
  | done hl => exact ⟨a, hl.assistant.trans ha, .done⟩
  | @deed s x xs t hl hd _ _ ih =>
    have hb : x.before.assistant = .ready a := hl.assistant.trans ha
    cases hx : x.appeals with
    | false =>
      have hafter : (x.result h).2.assistant = .ready a := (Deed.assistant_eq hd hx).trans hb
      obtain ⟨b, ht, hserves⟩ := ih hafter
      exact ⟨b, ht, .aside hx hb hafter hserves⟩
    | true =>
      have hw : (x.before.wakeAssistant h).assistant = .ready a := by
        rw [wakeAssistant_of_ready hb, hb]
      obtain ⟨b, hserved⟩ := Deed.exists_served hx hw
      obtain ⟨c, ht, hserves⟩ := ih hserved.after
      exact ⟨c, ht, .appeal hx hb hserved hserves⟩

theorem Deed.Served.extended {a b : Assistant σ} (hx : x.Served h a b) : a.Extended b := by
  obtain ⟨calls, hg, -⟩ := hx.calls
  exact hg.extended

theorem Serves.extended {a b : Assistant σ} (hs : Serves h a xs b) : a.Extended b := by
  induction hs with
  | done => exact .refl _
  | aside _ _ _ _ ih => exact ih
  | appeal _ _ hx _ ih => exact hx.extended.trans ih

/-- The first appeal decides for what comes after it. -/
theorem Deed.decides (hx : x.appeals = true) (hb : x.before.assistant = .untried)
    (hk : (x.result h).2.crashed = true → xs = [])
    (hs : Succession h (x.result h).2 xs t) : x.Decides h xs t := by
  rcases lacks_or_equipped h x.before with ⟨reason, hl⟩ | ⟨key, he⟩
  · have hr : x.Refused h reason := refused_of_wake hx (wakeAssistant_of_lacks hb hl)
      (wakeAssistant_of_lacks (assistant_recorded hb) hl.recorded)
    have ha : (x.result h).2.assistant = .unavailable reason := by rw [hr.after]
    obtain ⟨ht, hxs⟩ := hs.deprived ha
    exact .unavailable hl hr hxs ht
  · by_cases hroom : Conversation.Reservable x.before.settings.entryLimit
    · have hw : (x.before.wakeAssistant h).assistant = .ready (x.before.newAssistant h key) := by
        rw [wakeAssistant_of_equipped hb he hroom]
      obtain ⟨b, hserved⟩ := exists_served hx hw
      obtain ⟨c, ht, hserves⟩ := hs.exists_serves hserved.after
      exact .ready he hserved hserves ht hserves.extended
    -- The shell breaks down before anything is decided, and so nothing comes after it.
    · obtain ⟨act, -, -, hr, -⟩ := exists_acts h hx
      have ho : x.before.Overreaches h := ⟨hb, ⟨key, he⟩, hroom⟩
      have hw := wakeAssistant_of_overreaches ho
      have hres : x.result h = (1, { x.before with crashed := true, lastStatus := 1 }) := by
        refine (hr x.before).trans ?_
        rw [withAssistant, hw]
        dsimp only
        rw [hb]
        rfl
      obtain rfl := hk (by rw [hres])
      cases hs with
      | done hl =>
        refine .broken ho ?_ ?_
        · rw [hl.assistant, hres]
          exact hb
        · rw [hl.crashed, hres]

theorem Succession.exists_decides (hs : Succession h s xs t) (ha : s.assistant = .untried) :
    (t.assistant = .untried ∧ ∀ x ∈ xs, x.Undecided h) ∨
      ∃ quiet x rest, xs = quiet ++ x :: rest ∧ (∀ y ∈ quiet, y.Undecided h) ∧
        x.appeals = true ∧ x.before.assistant = .untried ∧ x.Decides h rest t := by
  induction hs with
  | done hl => exact .inl ⟨hl.assistant.trans ha, List.forall_mem_nil _⟩
  | @deed s x xs t hl hd hk hs ih =>
    have hb : x.before.assistant = .untried := hl.assistant.trans ha
    cases hx : x.appeals with
    | true =>
      exact .inr ⟨[], x, xs, rfl, List.forall_mem_nil _, hx, hb, Deed.decides hx hb hk hs⟩
    | false =>
      have hafter : (x.result h).2.assistant = .untried := (Deed.assistant_eq hd hx).trans hb
      have hquiet : x.Undecided h := ⟨hx, hb, hafter⟩
      rcases ih hafter with ⟨ht, hxs⟩ | ⟨quiet, y, rest, rfl, hq, hy⟩
      · exact .inl ⟨ht, List.forall_mem_cons.mpr ⟨hquiet, hxs⟩⟩
      · exact .inr ⟨x :: quiet, y, rest, rfl, List.forall_mem_cons.mpr ⟨hquiet, hq⟩, hy⟩

end

/-- What becomes of the assistant in every continuation of a session. As long as it was not tried,
no line was an appeal; the first appeal decides, and nothing decides again. From then on either
every appeal is refused for the same reason, with one diagnostic and no other call, or it is the
same assistant that hears them all: it asks the same service under the same terms, and what was said
is only added to. -/
theorem availability_is_decided_once (h : Host σ) (s : Session σ) (turns : List (Turn σ)) :
    let xs := deeds h turns s
    let t := continued h turns s
    (s.assistant = .untried →
      (t.assistant = .untried ∧ ∀ x ∈ xs, x.Undecided h) ∨
        ∃ quiet x rest, xs = quiet ++ x :: rest ∧ (∀ y ∈ quiet, y.Undecided h) ∧
          x.appeals = true ∧ x.before.assistant = .untried ∧ x.Decides h rest t) ∧
    (∀ reason, s.assistant = .unavailable reason →
      t.assistant = .unavailable reason ∧ ∀ x ∈ xs, x.Deprived h reason) ∧
    ∀ a, s.assistant = .ready a → ∃ b, t.assistant = .ready b ∧ Serves h a xs b ∧ a.Extended b := by
  intro xs t
  have hs : Succession h s xs t := succession_continued h turns s
  refine ⟨hs.exists_decides, fun _ => hs.deprived, fun a ha => ?_⟩
  obtain ⟨b, ht, hserves⟩ := hs.exists_serves ha
  exact ⟨b, ht, hserves, hserves.extended⟩

/-- A session without a key. A script calls the assistant before a key is exported, and to ask again
is of no use. -/
theorem availability_is_decided_once_keyless :
    let texts := [("/root/tidy", "cd\ncall list\n")]
    let h : Host Machine.Desk :=
      { Machine.Desk.host with
        fileContent := fun _ path =>
          ((texts.lookup path).map String.toUTF8).elim (.error (.system .noEntry)) .ok }
    let s : Session Machine.Desk :=
      { system := .onDisk .empty Machine.Disk.root true none
        settings := .ofPreferences {} none "/root/.ghsh"
        environment := {}
        directory := "/root" }
    let turns : List (Turn Machine.Desk) :=
      [.put (.line ". tidy" []), .put (.line "export OPENAI_API_KEY=sk-abcdef" []), .reaped,
        .put (.line "ask again" [])]
    let reason := "OPENAI_API_KEY is not set"
    (deeds h turns s).map (fun x => (x.line, x.appeals)) =
        [("cd", false), ("call list", true), ("export OPENAI_API_KEY=sk-abcdef", false),
          ("ask again", true)] ∧
      s.assistant = .untried ∧
      ∃ quiet x rest, deeds h turns s = quiet ++ x :: rest ∧ (∀ y ∈ quiet, y.Undecided h) ∧
        x.appeals = true ∧ x.Refused h reason ∧ ∀ y ∈ rest, y.Deprived h reason := by
  intro texts h s turns reason
  obtain ⟨hu, -, -⟩ := availability_is_decided_once h s turns
  have hreason : (match (continued h turns s).assistant with
      | .unavailable r => some r
      | _ => none) = some reason := by
    decide +kernel
  refine ⟨by decide +kernel, rfl, ?_⟩
  rcases hu rfl with ⟨ht, -⟩ | ⟨quiet, x, rest, hxs, hq, hx, -, hdec⟩
  · rw [ht] at hreason
    cases hreason
  refine ⟨quiet, x, rest, hxs, hq, hx, ?_⟩
  cases hdec with
  | unavailable _ hr hrest ht =>
    rw [ht] at hreason
    rw [Option.some.inj hreason] at hr hrest
    exact ⟨hr, hrest⟩
  | ready _ _ _ ht =>
    rw [ht] at hreason
    cases hreason
  | broken _ ht =>
    rw [ht] at hreason
    cases hreason

/-- A key alone is not enough. -/
example :
    let h : Host Machine.Desk :=
      { Machine.Desk.host with setUpClient := fun _ _ => .error "no certificates" }
    let s : Session Machine.Desk :=
      { system := .onDisk .empty Machine.Disk.root true none
        settings := .ofPreferences {} none "/root/.ghsh"
        environment := ⟨[⟨"OPENAI_API_KEY", "sk-abcdef"⟩]⟩
        directory := "/root" }
    (match (continued h [.put (.line "call list" [])] s).assistant with
      | .unavailable reason => some reason
      | _ => none) =
      some "failed to set up HTTP client: failed to build request: no certificates" := by
  decide +kernel

end Session

end AssistedShell
