import AssistedShell.Proofs.Session.Steady

/-! Executions of lines and scripts, with what happens in them. A derivation of
`Runs` is one finite execution; it knows no bound on the nesting but the depth
that the session itself counts. Every task has exactly one execution, whatever
the system does and however the scripts run each other, and its result is that
of the session's functions. -/

namespace AssistedShell.Session

variable {σ : Type} {h : Host σ} {s s' : Session σ}

/-- What happens while lines are executed. -/
inductive Event where
  /-- A line is taken up to be executed. -/
  | taken (line : String)
  /-- A line of a script or of the input says nothing and is passed over. -/
  | passed (line : String)
  /-- A line has been executed. -/
  | executed (status : Nat)
  /-- The built-in `exit` runs, with a status. -/
  | exit (arguments : List String) (status : Nat)
  /-- The lines of a script begin. -/
  | entered (path : String)
  /-- A script has ended. -/
  | left
  deriving DecidableEq, Repr

/-- What is to be executed. -/
inductive Task where
  /-- A line that was read. -/
  | line (text : String) (parsed : Except SyntaxFault (Option Pipeline))
  /-- The lines that are left of a script, after one with a status. -/
  | lines (lines : LineSource) (status : Nat)
  | script (path text : String)
  /-- A script in a file. -/
  | file (path : String)

/-- The status of a task and the session after it. -/
def Task.result (h : Host σ) : Task → Session σ → Nat × Session σ
  | .line text parsed, s => perform h (runNested h) text parsed s
  | .lines rest status, s => runLines h (runNested h) rest status s
  | .script path text, s => runNested h path text s
  | .file path, s => s.source h path

/-- The executions of a task: what happens, the status, and the session after it. -/
inductive Runs (h : Host σ) : Task → Session σ → List Event → Nat → Session σ → Prop where
  | plain {line parsed s n s'} : demand parsed = .plain →
      (∀ script, perform h script line parsed s = (n, s')) →
      Runs h (.line line parsed) s [.taken line, .executed n] n s'
  | exit {line parsed arguments s n s'} : demand parsed = .exit arguments →
      s.exit h arguments = (n, s') →
      Runs h (.line line parsed) s [.taken line, .exit arguments n, .executed n] n
        { s' with lastStatus := n }
  | source {line parsed path s es n s'} : demand parsed = .source path →
      Runs h (.file path) s es n s' →
      Runs h (.line line parsed) s (.taken line :: es ++ [.executed n]) n
        { s' with lastStatus := n }
  | missing {path s f} : h.readText s.system (joinPath s.directory path) = .error f →
      Runs h (.file path) s [] 1
        (s.report h ("source: " ++ joinPath s.directory path ++ ": " ++ f.message))
  | found {path s text es n s'} : h.readText s.system (joinPath s.directory path) = .ok text →
      Runs h (.script (joinPath s.directory path) text) s es n s' → Runs h (.file path) s es n s'
  | refused {path text s} : nestingLimit ≤ s.depth →
      Runs h (.script path text) s [] 1 (s.report h ("source: " ++ path ++ ": nested too deeply"))
  | script {path text s es n s'} : s.depth < nestingLimit →
      Runs h (.lines (text.textLines.map some) 0) { s with depth := s.depth + 1 } es n s' →
      Runs h (.script path text) s (.entered path :: es ++ [.left]) n
        { s' with depth := s'.depth - 1 }
  | finished {n s} : Runs h (.lines [] n) s [] n s
  | cut {rest n s} : Runs h (.lines (none :: rest) n) s [] n s
  | idle {line rest n s es m s'} : isIdle line = true → Runs h (.lines rest n) s es m s' →
      Runs h (.lines (some line :: rest) n) s (.passed line :: es) m s'
  | last {line rest n s es m s'} : isIdle line = false →
      Runs h (.line line (s.parse line rest).value) s es m s' → s'.isOver = true →
      Runs h (.lines (some line :: rest) n) s es m s'
  | next {line rest n s es m s' es' k s''} : isIdle line = false →
      Runs h (.line line (s.parse line rest).value) s es m s' → s'.isOver = false →
      Runs h (.lines (s.parse line rest).rest m) s' es' k s'' →
      Runs h (.lines (some line :: rest) n) s (es ++ es') k s''

/-- A task leaves the nesting as it was, on every way to its end. -/
theorem Runs.depth_eq {t : Task} {es : List Event} {n : Nat} (hr : Runs h t s es n s') :
    s'.depth = s.depth := by
  induction hr with
  | plain hd hp => exact (perform_plain_steady hd (hp (runNested h))).1
  | exit _ he =>
    obtain ⟨system, rfl⟩ := exit_snd h he
    rfl
  | source _ _ ih => exact ih
  | missing | refused | finished | cut => rfl
  | found _ _ ih => exact ih
  | script _ _ ih =>
    dsimp only at ih ⊢
    rw [ih, Nat.add_sub_cancel]
  | idle _ _ ih => exact ih
  | last _ _ _ ih => exact ih
  | next _ _ _ _ ih ih' => exact ih'.trans ih

/-! ### Every task is executed -/

/-- Whether a runner executes all scripts that start at a depth. -/
def Executes (h : Host σ) (depth : Nat) (script : ScriptRunner σ) : Prop :=
  ∀ path text s, s.depth = depth →
    ∃ es, Runs h (.script path text) s es (script path text s).1 (script path text s).2

variable {script : ScriptRunner σ}

theorem exists_runs_file (he : Executes h s.depth script) (path : String) :
    ∃ es, Runs h (.file path) s es (runFile h script path s).1 (runFile h script path s).2 := by
  rw [runFile]
  cases ht : h.readText s.system (joinPath s.directory path) with
  | error f => exact ⟨[], .missing ht⟩
  | ok text =>
    obtain ⟨es, hr⟩ := he (joinPath s.directory path) text s rfl
    exact ⟨es, .found ht hr⟩

theorem exists_runs_line (he : Executes h s.depth script) (line : String)
    (parsed : Except SyntaxFault (Option Pipeline)) :
    ∃ es, Runs h (.line line parsed) s es (perform h script line parsed s).1
      (perform h script line parsed s).2 := by
  cases hd : demand parsed with
  | exit arguments =>
    rw [perform_of_exit hd]
    exact ⟨_, .exit hd rfl⟩
  | source path =>
    obtain ⟨es, hr⟩ := exists_runs_file he path
    rw [perform_of_source hd]
    exact ⟨_, .source hd hr⟩
  | plain => exact ⟨_, .plain hd fun script' => perform_of_plain hd script' script⟩

theorem exists_runs_lines (lines : LineSource) (status : Nat) (s : Session σ)
    (he : Executes h s.depth script) :
    ∃ es, Runs h (.lines lines status) s es (runLines h script lines status s).1
      (runLines h script lines status s).2 := by
  fun_induction runLines h script lines status s with
  | case1 => exact ⟨[], .finished⟩
  | case2 => exact ⟨[], .cut⟩
  | case3 status s line rest hi ih =>
    obtain ⟨es, hr⟩ := ih he
    exact ⟨_, .idle hi hr⟩
  | case4 status s line rest hi taken n after hp hover =>
    obtain ⟨es, hr⟩ := exists_runs_line he line taken.value
    rw [hp] at hr
    exact ⟨es, .last (Bool.eq_false_iff.mpr hi) hr hover⟩
  | case5 status s line rest hi taken n after hp hover ih =>
    obtain ⟨es, hr⟩ := exists_runs_line he line taken.value
    rw [hp] at hr
    obtain ⟨es', hr'⟩ := ih (hr.depth_eq.symm ▸ he)
    exact ⟨_, .next (Bool.eq_false_iff.mpr hi) hr (Bool.eq_false_iff.mpr hover) hr'⟩

/-- Room for some scripts inside one another is enough at the depth that leaves so much. -/
theorem executes_runScript {levels depth : Nat} (hl : nestingLimit - depth = levels) :
    Executes h depth (runScript h levels) := by
  induction levels generalizing depth with
  | zero =>
    rintro path text s rfl
    exact ⟨[], .refused (Nat.sub_eq_zero_iff_le.mp hl)⟩
  | succ levels ih =>
    rintro path text s rfl
    have hnext : nestingLimit - (s.depth + 1) = levels := by omega
    obtain ⟨es, hr⟩ := exists_runs_lines (text.textLines.map some) 0 { s with depth := s.depth + 1 }
      (ih hnext)
    exact ⟨_, .script (by omega) hr⟩

theorem executes_runNested (depth : Nat) : Executes h depth (runNested h) := by
  rintro path text s rfl
  exact executes_runScript rfl path text s rfl

theorem exists_runs (h : Host σ) (t : Task) (s : Session σ) :
    ∃ es, Runs h t s es (t.result h s).1 (t.result h s).2 := by
  have he : Executes h s.depth (runNested h) := executes_runNested s.depth
  cases t with
  | line line parsed => exact exists_runs_line he line parsed
  | lines lines status => exact exists_runs_lines lines status s he
  | script path text => exact he path text s rfl
  | file path => exact exists_runs_file he path

/-! ### There is no other execution -/

theorem Runs.unique {t : Task} {es es' : List Event} {n n' : Nat} {s'' : Session σ}
    (hr : Runs h t s es n s') (hr' : Runs h t s es' n' s'') : es = es' ∧ n = n' ∧ s' = s'' := by
  induction hr generalizing es' n' s'' with
  | plain hd hp =>
    cases hr' with
    | plain _ hp' =>
      obtain ⟨rfl, rfl⟩ := Prod.mk.inj ((hp (runNested h)).symm.trans (hp' (runNested h)))
      exact ⟨rfl, rfl, rfl⟩
    | exit hd' | source hd' => cases hd.symm.trans hd'
  | exit hd he =>
    cases hr' with
    | exit hd' he' =>
      obtain rfl := Demand.exit.inj (hd.symm.trans hd')
      obtain ⟨rfl, rfl⟩ := Prod.mk.inj (he.symm.trans he')
      exact ⟨rfl, rfl, rfl⟩
    | plain hd' | source hd' => cases hd.symm.trans hd'
  | source hd _ ih =>
    cases hr' with
    | source hd' hf =>
      obtain rfl := Demand.source.inj (hd.symm.trans hd')
      obtain ⟨rfl, rfl, rfl⟩ := ih hf
      exact ⟨rfl, rfl, rfl⟩
    | plain hd' | exit hd' => cases hd.symm.trans hd'
  | missing ht =>
    cases hr' with
    | missing ht' =>
      obtain rfl := Except.error.inj (ht.symm.trans ht')
      exact ⟨rfl, rfl, rfl⟩
    | found ht' => cases ht.symm.trans ht'
  | found ht _ ih =>
    cases hr' with
    | missing ht' => cases ht.symm.trans ht'
    | found ht' hs =>
      obtain rfl := Except.ok.inj (ht.symm.trans ht')
      exact ih hs
  | refused hl =>
    cases hr' with
    | refused => exact ⟨rfl, rfl, rfl⟩
    | script hl' => exact absurd hl (Nat.not_le.mpr hl')
  | script hl _ ih =>
    cases hr' with
    | refused hl' => exact absurd hl' (Nat.not_le.mpr hl)
    | script _ hs =>
      obtain ⟨rfl, rfl, rfl⟩ := ih hs
      exact ⟨rfl, rfl, rfl⟩
  | finished =>
    cases hr' with
    | finished => exact ⟨rfl, rfl, rfl⟩
  | cut =>
    cases hr' with
    | cut => exact ⟨rfl, rfl, rfl⟩
  | idle hi _ ih =>
    cases hr' with
    | idle _ hr' =>
      obtain ⟨rfl, rfl, rfl⟩ := ih hr'
      exact ⟨rfl, rfl, rfl⟩
    | last hi' | next hi' => cases hi.symm.trans hi'
  | last hi _ ho ih =>
    cases hr' with
    | idle hi' => cases hi.symm.trans hi'
    | last _ hr' => exact ih hr'
    | next _ hr' ho' =>
      obtain ⟨rfl, rfl, rfl⟩ := ih hr'
      cases ho.symm.trans ho'
  | next hi _ ho _ ih ih' =>
    cases hr' with
    | idle hi' => cases hi.symm.trans hi'
    | last _ hr' ho' =>
      obtain ⟨rfl, rfl, rfl⟩ := ih hr'
      cases ho.symm.trans ho'
    | next _ hr' _ hn =>
      obtain ⟨rfl, rfl, rfl⟩ := ih hr'
      obtain ⟨rfl, rfl, rfl⟩ := ih' hn
      exact ⟨rfl, rfl, rfl⟩

end AssistedShell.Session
