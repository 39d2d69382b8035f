import AssistedShell.Proofs.Pipeline.Checked
import AssistedShell.Proofs.Session.Unwinding
import AssistedShell.Proofs.Text.Cutting

/-! What breaks the shell down. Lines are read and texts are cut without fail,
and of the commands only two can break the shell down: `export`, when it is to
give a variable a value with a NUL in it, and `call` or `ask`, when the first of
them is to set aside room for more entries than there can be. Whatever else goes
wrong stays within its line. -/

namespace AssistedShell

namespace Session

variable {σ : Type} {h : Host σ} {s s' t : Session σ} {line : String}
  {parsed : Except SyntaxFault (Option Pipeline)}

/-! ### The arguments of `export` -/

theorem notMem_of_isIdentifier {name : List Char} {c : Char} (hn : isIdentifier name = true)
    (hu : c ≠ '_') (hc : c.isAlphanum = false) : c ∉ name := by
  cases name with
  | nil => cases hn
  | cons d r =>
    rw [isIdentifier, Bool.and_eq_true, List.all_eq_true] at hn
    intro hm
    rcases List.mem_cons.mp hm with rfl | hm
    · rw [Char.isAlphanum, Bool.or_eq_false_iff] at hc
      simp [hu, hc.1] at hn
    · have hr := hn.2 c hm
      simp [hu, hc] at hr

/-- The name of a variable asks nothing more of the system than that no NUL stands in the value. -/
theorem settable_iff {name : List Char} (hn : isIdentifier name = true) (value : List Char) :
    Environment.Settable (String.ofList name) (String.ofList value) ↔ '\x00' ∉ value := by
  have he : String.ofList name ≠ "" := by
    intro he
    have hnil : name = [] := by simpa using congrArg String.toList he
    rw [hnil] at hn
    cases hn
  rw [Environment.Settable, String.toList_ofList, String.toList_ofList]
  exact ⟨fun hs => hs.2.2.2, fun hv => ⟨he, notMem_of_isIdentifier hn (by decide) (by decide),
    notMem_of_isIdentifier hn (by decide) (by decide), hv⟩⟩

/-- Whether an argument of `export` gives a variable a value that the system does not take. -/
def Unsettable (argument : String) : Prop :=
  ∃ name value, argument.toList = name ++ '=' :: value ∧ isIdentifier name = true ∧ '\x00' ∈ value

theorem exists_of_assign {argument name value : String}
    (ha : Assignment.ofArgument argument = .assign name value) :
    ∃ before after, argument.toList = before ++ '=' :: after ∧ isIdentifier before = true ∧
      name = String.ofList before ∧ value = String.ofList after := by
  rw [Assignment.ofArgument] at ha
  rcases hs : Text.splitAt? '=' argument.toList with _ | ⟨before, after⟩
  · rw [hs] at ha
    dsimp only at ha
    split at ha
    · cases ha
    · cases ha
  · rw [hs] at ha
    dsimp only at ha
    split at ha
    case isTrue hn =>
      obtain ⟨rfl, rfl⟩ := Assignment.assign.inj ha
      exact ⟨before, after, (Text.splitAt?_eq_some_iff.mp hs).1, hn, rfl, rfl⟩
    case isFalse => cases ha

theorem unsettable_iff {argument : String} :
    Unsettable argument ↔
      ∃ name value, Assignment.ofArgument argument = .assign name value ∧
        ¬ Environment.Settable name value := by
  constructor
  · rintro ⟨name, value, ha, hn, hv⟩
    have hs : Text.splitAt? '=' argument.toList = some (name, value) :=
      Text.splitAt?_eq_some_iff.mpr ⟨ha, notMem_of_isIdentifier hn (by decide) (by decide)⟩
    refine ⟨String.ofList name, String.ofList value, ?_, ?_⟩
    · rw [Assignment.ofArgument, hs]
      dsimp only
      rw [if_pos hn]
    · rw [settable_iff hn]
      exact not_not.mpr hv
  · rintro ⟨name, value, ha, hv⟩
    obtain ⟨before, after, hs, hn, rfl, rfl⟩ := exists_of_assign ha
    rw [settable_iff hn, not_not] at hv
    exact ⟨before, after, hs, hn, hv⟩

theorem not_unsettable {argument : String} {a : Assignment} (ha : Assignment.ofArgument argument = a)
    (hs : ∀ name value, a = .assign name value → Environment.Settable name value) :
    ¬ Unsettable argument := by
  rw [unsettable_iff, ha]
  rintro ⟨name, value, h, hns⟩
  exact hns (hs name value h)

theorem crashed_assignAll_iff (s : Session σ) (status : Nat) (arguments : List String)
    (hc : s.crashed = false) :
    (s.assignAll h status arguments).2.crashed = true ↔ ∃ a ∈ arguments, Unsettable a := by
  fun_induction assignAll h s status arguments with
  | case1 s status => simp [hc]
  | case2 s status argument rest ha t ih =>
    rw [ih hc, List.exists_mem_cons_iff, or_iff_right (not_unsettable ha (by rintro _ _ ⟨⟩))]
  | case3 s status argument rest ha ih =>
    rw [ih hc, List.exists_mem_cons_iff, or_iff_right (not_unsettable ha (by rintro _ _ ⟨⟩))]
  | case4 s status argument rest name value ha hs ih =>
    have hn : ¬ Unsettable argument := by
      refine not_unsettable ha ?_
      rintro _ _ ⟨⟩
      exact hs
    rw [ih hc, List.exists_mem_cons_iff, or_iff_right hn]
  | case5 s status argument rest name value ha hs =>
    have hu : Unsettable argument := unsettable_iff.mpr ⟨name, value, ha, hs⟩
    exact iff_of_true rfl ⟨argument, List.mem_cons_self, hu⟩

theorem crashed_exportVariables_iff (s : Session σ) (arguments : List String)
    (hc : s.crashed = false) :
    (s.exportVariables h arguments).2.crashed = true ↔ ∃ a ∈ arguments, Unsettable a := by
  rw [exportVariables]
  cases arguments with
  | nil => simp [say, hc]
  | cons a rest => exact crashed_assignAll_iff s 0 (a :: rest) hc

/-! ### The first use of the assistant -/

theorem Wakes.crashed_iff (hw : s.Wakes h t) (hc : s.crashed = false) :
    t.crashed = true ↔ s.Overreaches h := by
  cases hw with
  | settled hs => exact iff_of_false (by simp [hc]) fun ho => hs ho.untried
  | lacking _ hl =>
    refine iff_of_false (by simp [hc]) fun ho => ?_
    obtain ⟨key, he⟩ := ho.equipped
    exact hl.not_equipped he
  | ready _ _ hr => exact iff_of_false (by simp [hc]) fun ho => ho.room hr
  | broken ho => exact iff_of_true rfl ho

/-- What is done with the assistant breaks nothing down after it has been looked for. -/
theorem crashed_of_wake (hc : s.crashed = false)
    (ht : ∃ system assistant, t = { s.wakeAssistant h with system, assistant }) :
    t.crashed = true ↔ s.Overreaches h := by
  obtain ⟨system, assistant, rfl⟩ := ht
  exact (wakes_wakeAssistant h s).crashed_iff hc

theorem crashed_call_iff (s : Session σ) (request : String) (hc : s.crashed = false) :
    (s.call h request).2.crashed = true ↔ request.isAllBlank = false ∧ s.Overreaches h := by
  by_cases hr : request.isAllBlank = true
  · rw [call, if_pos hr, hr]
    simp [report, hc]
  · rw [Bool.not_eq_true] at hr
    rw [and_iff_right hr]
    exact crashed_of_wake hc (exists_call h hr s)

theorem crashed_ask_iff (s : Session σ) (question : String) (hc : s.crashed = false) :
    (s.ask h question).2.crashed = true ↔ question.isAllBlank = false ∧ s.Overreaches h := by
  by_cases hq : question.isAllBlank = true
  · rw [ask, if_pos hq, hq]
    simp [report, hc]
  · rw [Bool.not_eq_true] at hq
    rw [and_iff_right hq]
    exact crashed_of_wake hc (exists_ask h hq s)

/-! ### Lines -/

/-- Whether a built-in command breaks the shell down. -/
inductive BuiltinBreaks (h : Host σ) (s : Session σ) (arguments : List String) :
    Builtin → Prop where
  | export {a} : a ∈ arguments → Unsettable a → BuiltinBreaks h s arguments .export
  | call : (" ".intercalate arguments).isAllBlank = false → s.Overreaches h →
      BuiltinBreaks h s arguments .call
  | ask : (" ".intercalate arguments).isAllBlank = false → s.Overreaches h →
      BuiltinBreaks h s arguments .ask

/-- Whether a line breaks the shell down: its single stage is a built-in command that does. -/
inductive Breaks (h : Host σ) (s : Session σ) : Except SyntaxFault (Option Pipeline) → Prop where
  | builtin {p b arguments} : builtinOf? p = some (b, arguments) → BuiltinBreaks h s arguments b →
      Breaks h s (.ok (some p))

theorem crashed_runBuiltin_iff {b : Builtin} {arguments : List String} (script : ScriptRunner σ)
    (hx : b ≠ .exit) (hs : b = .source → arguments = []) (hc : s.crashed = false) :
    (runBuiltin h script b arguments s).2.crashed = true ↔ BuiltinBreaks h s arguments b := by
  match b with
  | .cd =>
    obtain ⟨system, directory, ht⟩ := exists_changeDirectory h s arguments
    rw [runBuiltin, ht]
    exact iff_of_false (by simp [hc]) nofun
  | .exit => exact absurd rfl hx
  | .help => exact iff_of_false (by simp [runBuiltin, say, hc]) nofun
  | .history =>
    obtain ⟨system, ht⟩ := exists_history h s
    rw [runBuiltin, ht]
    exact iff_of_false (by simp [hc]) nofun
  | .export =>
    rw [runBuiltin, crashed_exportVariables_iff s arguments hc]
    exact ⟨fun ⟨a, ha, hu⟩ => .export ha hu, fun | .export ha hu => ⟨_, ha, hu⟩⟩
  | .source =>
    rw [hs rfl]
    exact iff_of_false (by simp [runBuiltin, report, hc]) nofun
  | .call =>
    rw [runBuiltin, crashed_call_iff s _ hc]
    exact ⟨fun ⟨hr, ho⟩ => .call hr ho, fun | .call hr ho => ⟨hr, ho⟩⟩
  | .ask =>
    rw [runBuiltin, crashed_ask_iff s _ hc]
    exact ⟨fun ⟨hr, ho⟩ => .ask hr ho, fun | .ask hr ho => ⟨hr, ho⟩⟩

/-- Only plain lines break the shell down by themselves. -/
theorem Breaks.plain (hb : Breaks h s parsed) : demand parsed = .plain := by
  cases hb with
  | builtin hp hb =>
    rw [demand, hp]
    cases hb with
    | _ => rfl

theorem crashed_perform_iff {script : ScriptRunner σ} (hd : demand parsed = .plain)
    (hc : s.crashed = false) :
    (perform h script line parsed s).2.crashed = true ↔ Breaks h s parsed := by
  rcases parsed with f | _ | p
  · exact iff_of_false (by simp [perform, report, hc]) (by rintro ⟨⟩)
  · exact iff_of_false (by simp [perform, hc]) (by rintro ⟨⟩)
  rcases hb : builtinOf? p with _ | ⟨b, arguments⟩
  · obtain ⟨jobs, system, ht⟩ := exists_runPipeline h p line s
    rw [perform, hb]
    dsimp only
    rw [ht]
    refine iff_of_false (by simp [hc]) ?_
    rintro ⟨hp, -⟩
    cases hb.symm.trans hp
  · obtain ⟨hx, hs⟩ := of_demand_plain hd hb
    have hr := crashed_runBuiltin_iff (h := h) script hx hs hc
    rw [perform, hb]
    refine hr.trans ⟨fun hk => .builtin hb hk, ?_⟩
    rintro ⟨hp, hk⟩
    obtain ⟨rfl, rfl⟩ := Prod.mk.inj (Option.some.inj (hb.symm.trans hp))
    exact hk

/-! ### Executions -/

/-- The lines performed in the course of a task, each with the session that it met. -/
inductive Performs (h : Host σ) :
    Task → Session σ → Except SyntaxFault (Option Pipeline) → Session σ → Prop where
  | here {text parsed s} : Performs h (.line text parsed) s parsed s
  | source {line parsed path s q t} : demand parsed = .source path →
      Performs h (.file path) s q t → Performs h (.line line parsed) s q t
  | file {path text s q t} : h.readText s.system (joinPath s.directory path) = .ok text →
      Performs h (.script (joinPath s.directory path) text) s q t → Performs h (.file path) s q t
  | script {path text s q t} : s.depth < nestingLimit →
      Performs h (.lines (text.textLines.map some) 0) { s with depth := s.depth + 1 } q t →
      Performs h (.script path text) s q t
  | idle {line rest n s q t} : isIdle line = true → Performs h (.lines rest n) s q t →
      Performs h (.lines (some line :: rest) n) s q t
  | first {line rest n s q t} : isIdle line = false →
      Performs h (.line line (s.parse line rest).value) s q t →
      Performs h (.lines (some line :: rest) n) s q t
  | later {line rest n s es m s' q t} : isIdle line = false →
      Runs h (.line line (s.parse line rest).value) s es m s' → s'.isOver = false →
      Performs h (.lines (s.parse line rest).rest m) s' q t →
      Performs h (.lines (some line :: rest) n) s q t

/-- A breakdown comes from a line that was performed. -/
theorem Runs.exists_performs {task : Task} {es : List Event} {n : Nat}
    (hr : Runs h task s es n s') (hc : s.crashed = false) (hk : s'.crashed = true) :
    ∃ q t, Performs h task s q t ∧ Breaks h t q := by
  induction hr with
  | @plain line parsed s n s' hd hp =>
    have hs : (perform h (runNested h) line parsed s).2 = s' := congrArg Prod.snd (hp _)
    rw [← hs] at hk
    exact ⟨parsed, s, .here, (crashed_perform_iff hd hc).mp hk⟩
  | exit _ he =>
    obtain ⟨system, rfl⟩ := exit_snd h he
    cases hc.symm.trans hk
  | source hd _ ih =>
    obtain ⟨q, t, hp, hb⟩ := ih hc hk
    exact ⟨q, t, .source hd hp, hb⟩
  | missing | refused | finished | cut => cases hc.symm.trans hk
  | found ht _ ih =>
    obtain ⟨q, t, hp, hb⟩ := ih hc hk
    exact ⟨q, t, .file ht hp, hb⟩
  | script hl _ ih =>
    obtain ⟨q, t, hp, hb⟩ := ih hc hk
    exact ⟨q, t, .script hl hp, hb⟩
  | idle hi _ ih =>
    obtain ⟨q, t, hp, hb⟩ := ih hc hk
    exact ⟨q, t, .idle hi hp, hb⟩
  | last hi _ _ ih =>
    obtain ⟨q, t, hp, hb⟩ := ih hc hk
    exact ⟨q, t, .first hi hp, hb⟩
  | next hi hr ho _ _ ih =>
    obtain ⟨q, t, hp, hb⟩ := ih (isOver_eq_false.mp ho).2 hk
    exact ⟨q, t, .later hi hr ho hp, hb⟩

/-- The first line that breaks the shell down ends the task. -/
theorem Performs.crashed {task : Task} {q : Except SyntaxFault (Option Pipeline)}
    (hp : Performs h task s q t) (hb : Breaks h t q) (hc : s.crashed = false) {es : List Event}
    {n : Nat} (hr : Runs h task s es n s') : s'.crashed = true := by
  induction hp generalizing es n s' with
  | @here text parsed s =>
    cases hr with
    | plain hd hp =>
      have hs : (perform h (runNested h) text parsed s).2 = s' := congrArg Prod.snd (hp _)
      rw [← hs]
      exact (crashed_perform_iff hd hc).mpr hb
    | exit hd | source hd => cases hb.plain.symm.trans hd
  | source hd _ ih =>
    cases hr with
    | plain hd' | exit hd' => cases hd.symm.trans hd'
    | source hd' hf =>
      obtain rfl := Demand.source.inj (hd.symm.trans hd')
      have hk := ih hb hc hf
      exact hk
  | file ht _ ih =>
    cases hr with
    | missing ht' => cases ht.symm.trans ht'
    | found ht' hs =>
      obtain rfl := Except.ok.inj (ht.symm.trans ht')
      exact ih hb hc hs
  | script hl _ ih =>
    cases hr with
    | refused hl' => exact absurd hl' (Nat.not_le.mpr hl)
    | script _ hs =>
      have hk := ih hb hc hs
      exact hk
  | idle hi _ ih =>
    cases hr with
    | idle _ hr' => exact ih hb hc hr'
    | last hi' | next hi' => cases hi.symm.trans hi'
  | first hi _ ih =>
    cases hr with
    | idle hi' => cases hi.symm.trans hi'
    | last _ hr' => exact ih hb hc hr'
    | next _ hr' ho => cases (isOver_eq_false.mp ho).2.symm.trans (ih hb hc hr')
  | later hi hr₁ ho _ ih =>
    cases hr with
    | idle hi' => cases hi.symm.trans hi'
    | last _ hr' ho' =>
      obtain ⟨-, -, rfl⟩ := hr₁.unique hr'
      cases ho.symm.trans ho'
    | next _ hr' _ hn =>
      obtain ⟨-, rfl, rfl⟩ := hr₁.unique hr'
      exact ih hb (isOver_eq_false.mp ho).2 hn

/-- The latch of a session that was not to end stays as it is unless `exit` runs. -/
theorem Runs.exitLatch_eq_none_iff {task : Task} {es : List Event} {n : Nat}
    (hr : Runs h task s es n s') (ho : s.isOver = false) :
    s'.exitLatch = none ↔ ∀ ev ∈ es, ev.isExit = false := by
  have hl := hr.orderly.latches ho
  generalize s'.exitLatch = latch at hl ⊢
  cases hl with
  | unset hn => exact iff_of_true rfl hn
  | @set before arguments status after hes =>
    refine iff_of_false nofun fun hn => ?_
    have hm : Event.exit arguments status ∈ es := by simp [hes]
    cases hn _ hm

theorem settable_of_assign {argument name value : String}
    (ha : Assignment.ofArgument argument = .assign name value) :
    Environment.Settable name value ↔ '\x00' ∉ value.toList := by
  obtain ⟨name', value', hs, hn, rfl, rfl⟩ := exists_of_assign ha
  rw [settable_iff hn, String.toList_ofList]

/-- What the execution of a line comes to in a session that is not to end. Neither the reading of a
line nor the cut of a text goes wrong, and the names that `export` assigns to are names that the
system takes. The line has one finite execution, with the status and the session that come back. It
breaks the shell down if and only if one of the lines performed, the line itself or one of a script,
gives a variable a value with a NUL in it or sets aside too much room. Otherwise the session goes on,
unless `exit` has run. -/
theorem execute_breaks_down_iff (h : Host σ) (s : Session σ) (ho : s.isOver = false) (line : String)
    (input : LineSource) :
    let task := Task.line line (s.parse line input).value
    (∀ tokens source,
      Pipeline.ofTokensChecked tokens source = some (Pipeline.ofTokens tokens source)) ∧
    (∀ limit text, Text.cutBefore? limit text = some (Text.cut limit text)) ∧
    (∀ argument name value, Assignment.ofArgument argument = .assign name value →
      (Environment.Settable name value ↔ '\x00' ∉ value.toList)) ∧
    ∃ es status s', s.execute h line input = ((status, (s.parse line input).rest), s') ∧
      Runs h task s es status s' ∧
      (s'.crashed = true ↔ ∃ q t, Performs h task s q t ∧ Breaks h t q) ∧
      (s'.isOver = false ↔ s'.crashed = false ∧ ∀ ev ∈ es, ev.isExit = false) := by
  intro task
  obtain ⟨es, hr⟩ := exists_runs h task s
  have hc : s.crashed = false := (isOver_eq_false.mp ho).2
  have hcrash : (task.result h s).2.crashed = true ↔
      ∃ q t, Performs h task s q t ∧ Breaks h t q := by
    constructor
    · exact hr.exists_performs hc
    · rintro ⟨q, t, hp, hb⟩
      exact hp.crashed hb hc hr
  have hover : (task.result h s).2.isOver = false ↔
      (task.result h s).2.crashed = false ∧ ∀ ev ∈ es, ev.isExit = false := by
    rw [isOver_eq_false, hr.exitLatch_eq_none_iff ho, and_comm]
  exact ⟨Pipeline.ofTokensChecked_eq, Text.cutBefore?_eq, fun _ _ _ => settable_of_assign, es, _, _,
    rfl, hr, hcrash, hover⟩

/-- With room for the most entries that a settings file can ask for, the first `call` breaks the
shell down. -/
theorem call_overreaches :
    let s : Session Machine.Desk :=
      { system := .onDisk .empty Machine.Disk.root true none
        settings := .ofPreferences { entryLimit := some 9223372036854775807 } none "/root/.ghsh"
        environment := ⟨[⟨"OPENAI_API_KEY", "sk-abcdef"⟩]⟩
        directory := "/root" }
    let task := Task.line "call list" (s.parse "call list" []).value
    s.isOver = false ∧
      ∃ es status s',
        s.execute Machine.Desk.host "call list" [] =
          ((status, (s.parse "call list" []).rest), s') ∧
        Runs Machine.Desk.host task s es status s' ∧ s'.crashed = true ∧
        ∃ q t, Performs Machine.Desk.host task s q t ∧ Breaks Machine.Desk.host t q := by
  intro s task
  obtain ⟨-, -, -, es, status, s', he, hr, hk, -⟩ :=
    execute_breaks_down_iff Machine.Desk.host s rfl "call list" []
  have hs : s'.crashed = true := by
    have hd : (s.execute Machine.Desk.host "call list" []).2.crashed = true := by decide +kernel
    rwa [he] at hd
  exact ⟨rfl, es, status, s', he, hr, hs, hk.mp hs⟩

end Session

namespace CommandLine

open Session

/-- A first line with a NUL ends the process, and the line after it is not executed. -/
theorem export_with_nul :
    let s : Session Machine.Desk :=
      { system := .onDisk .empty Machine.Disk.root true (some "export A=x\x00y\nexit 5\n".toUTF8)
        settings := .ofPreferences {} none "/root/.ghsh"
        environment := {}
        directory := "/root" }
    s.isOver = false ∧
      ((s.execute Machine.Desk.host "export A=x\x00y" []).2.crashed = true) ∧
      (conduct Machine.Desk.host {} s).1 = 101 := by
  decide +kernel

end CommandLine

end AssistedShell
