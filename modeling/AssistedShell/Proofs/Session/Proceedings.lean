import AssistedShell.Proofs.Session.Execution

/-! What a session is put to: a line, a script, the startup files, or a whole
dialogue. Each of these has exactly one course, in which lines and scripts are
executed one after another. -/

namespace AssistedShell.Session

variable {σ : Type} {h : Host σ} {s s' s'' : Session σ}

/-- What a session is put to. -/
inductive Activity where
  /-- A line is executed; the input holds the lines for its here-documents. -/
  | line (text : String) (input : LineSource)
  /-- The script in a file is run. -/
  | script (path : String)
  /-- A startup file is run, if there is one. -/
  | startupFile (path : String)
  /-- The startup files in a directory are run. -/
  | startupFiles (home : String) (names : List String)
  /-- The startup files of the user are run. -/
  | startUp
  /-- Command lines are read and executed. -/
  | dialogue (lines : LineSource)
  /-- Command lines are read from the session's input, on demand after the startup files. -/
  | interaction (startup : Bool)

/-- The session after an activity. -/
def Activity.result (h : Host σ) : Activity → Session σ → Session σ
  | .line text input, s => (s.execute h text input).2
  | .script path, s => (s.source h path).2
  | .startupFile path, s => s.runStartupFile h path
  | .startupFiles home names, s => runStartupFiles h home names s
  | .startUp, s => s.startUp h
  | .dialogue input, s => (converse h input s).2
  | .interaction startup, s => (s.interact h startup).2

/-- The courses of an activity: what happens, and the session after it. -/
inductive Proceeds (h : Host σ) : Activity → Session σ → List Event → Session σ → Prop where
  | line {text input s es n s'} : Runs h (.line text (s.parse text input).value) s es n s' →
      Proceeds h (.line text input) s es s'
  | script {path s es n s'} : Runs h (.file path) s es n s' → Proceeds h (.script path) s es s'
  | absent {path s f} : h.readText s.system path = .error f → f.kind = .notFound →
      Proceeds h (.startupFile path) s [] s
  | unreadable {path s f} : h.readText s.system path = .error f → f.kind ≠ .notFound →
      Proceeds h (.startupFile path) s [] (s.report h (path ++ ": " ++ f.message))
  | present {path text s es n s'} : h.readText s.system path = .ok text →
      Runs h (.script path text) s es n s' → Proceeds h (.startupFile path) s es s'
  | noFiles {home s} : Proceeds h (.startupFiles home []) s [] s
  | lastFile {home name names s es s'} :
      Proceeds h (.startupFile (joinPath home name)) s es s' → s'.isOver = true →
      Proceeds h (.startupFiles home (name :: names)) s es s'
  | nextFile {home name names s es s' es' s''} :
      Proceeds h (.startupFile (joinPath home name)) s es s' → s'.isOver = false →
      Proceeds h (.startupFiles home names) s' es' s'' →
      Proceeds h (.startupFiles home (name :: names)) s (es ++ es') s''
  | homeless {s : Session σ} : s.home? h = none → Proceeds h .startUp s [] s
  | atHome {home s es s'} : s.home? h = some home →
      Proceeds h (.startupFiles home Home.startupFiles) s es s' → Proceeds h .startUp s es s'
  | ended {lines s} : s.isOver = true → Proceeds h (.dialogue lines) s [] s
  | closed {s : Session σ} : s.isOver = false → Proceeds h (.dialogue []) s [] (s.reapJobs h)
  | cut {rest s} : s.isOver = false → Proceeds h (.dialogue (none :: rest)) s [] (s.reapJobs h)
  | blank {line rest s es s'} : s.isOver = false → line.isAllBlank = true →
      Proceeds h (.dialogue rest) (s.reapJobs h) es s' →
      Proceeds h (.dialogue (some line :: rest)) s (.passed line :: es) s'
  | command {line rest s t es n s' es' s''} : s.isOver = false → line.isAllBlank = false →
      (s.reapJobs h).recordHistory h line = t →
      Runs h (.line line (t.parse line rest).value) t es n s' →
      Proceeds h (.dialogue (t.parse line rest).rest) s' es' s'' →
      Proceeds h (.dialogue (some line :: rest)) s (es ++ es') s''
  | greeted {s es s' es' s''} : Proceeds h .startUp s es s' →
      Proceeds h (.interaction false) s' es' s'' → Proceeds h (.interaction true) s (es ++ es') s''
  | silent {s : Session σ} : s.isOver = true → Proceeds h (.interaction false) s [] s
  | reading {s input system es s'} : s.isOver = false → h.readInput s.system = (input, system) →
      Proceeds h (.dialogue (inputLines input)) { s with system } es s' →
      Proceeds h (.interaction false) s es s'

/-! ### Every activity has a course -/

theorem proceeds_line (text : String) (input : LineSource) (s : Session σ) :
    ∃ es, Proceeds h (.line text input) s es (s.execute h text input).2 := by
  obtain ⟨es, hr⟩ := exists_runs h (.line text (s.parse text input).value) s
  exact ⟨es, .line hr⟩

theorem proceeds_startupFile (path : String) (s : Session σ) :
    ∃ es, Proceeds h (.startupFile path) s es (s.runStartupFile h path) := by
  rw [runStartupFile]
  cases ht : h.readText s.system path with
  | ok text =>
    obtain ⟨es, hr⟩ := exists_runs h (.script path text) s
    exact ⟨es, .present ht hr⟩
  | error f =>
    dsimp only
    split
    · exact ⟨[], .absent ht ‹_›⟩
    · exact ⟨[], .unreadable ht ‹_›⟩

theorem proceeds_startupFiles (home : String) (names : List String) (s : Session σ) :
    ∃ es, Proceeds h (.startupFiles home names) s es (runStartupFiles h home names s) := by
  induction names generalizing s with
  | nil => exact ⟨[], .noFiles⟩
  | cons name names ih =>
    obtain ⟨es, hp⟩ := proceeds_startupFile (h := h) (joinPath home name) s
    rw [runStartupFiles]
    by_cases ho : (s.runStartupFile h (joinPath home name)).isOver = true
    · rw [if_pos ho]
      exact ⟨es, .lastFile hp ho⟩
    · obtain ⟨es', hp'⟩ := ih (s.runStartupFile h (joinPath home name))
      rw [if_neg ho]
      exact ⟨es ++ es', .nextFile hp (Bool.eq_false_iff.mpr ho) hp'⟩

theorem proceeds_startUp (s : Session σ) : ∃ es, Proceeds h .startUp s es (s.startUp h) := by
  rw [startUp]
  cases hh : s.home? h with
  | none => exact ⟨[], .homeless hh⟩
  | some home =>
    obtain ⟨es, hp⟩ := proceeds_startupFiles (h := h) home Home.startupFiles s
    exact ⟨es, .atHome hh hp⟩

theorem proceeds_dialogue (lines : LineSource) (s : Session σ) :
    ∃ es, Proceeds h (.dialogue lines) s es (converse h lines s).2 := by
  fun_induction converse h lines s with
  | case1 lines s ho => exact ⟨[], .ended ho⟩
  | case2 s ho => exact ⟨[], .closed (Bool.eq_false_iff.mpr ho)⟩
  | case3 s ho => exact ⟨[], .cut (Bool.eq_false_iff.mpr ho)⟩
  | case4 s ho _ line rest hb ih =>
    obtain ⟨es, hp⟩ := ih
    exact ⟨_, .blank (Bool.eq_false_iff.mpr ho) hb hp⟩
  | case5 s ho _ line rest hb t taken ih =>
    obtain ⟨es, hr⟩ := exists_runs h (.line line taken.value) t
    obtain ⟨es', hp⟩ := ih
    exact ⟨_, .command (Bool.eq_false_iff.mpr ho) (Bool.eq_false_iff.mpr hb) rfl hr hp⟩

theorem proceeds_input (s : Session σ) :
    ∃ es, Proceeds h (.interaction false) s es (s.interact h false).2 := by
  rw [interact]
  by_cases ho : s.isOver = true
  · exact ⟨[], by simpa [ho] using .silent ho⟩
  · obtain ⟨es, hp⟩ := proceeds_dialogue (h := h) (inputLines (h.readInput s.system).1)
      { s with system := (h.readInput s.system).2 }
    exact ⟨es, by simpa [ho] using .reading (Bool.eq_false_iff.mpr ho) rfl hp⟩

theorem exists_proceeds (h : Host σ) (a : Activity) (s : Session σ) :
    ∃ es, Proceeds h a s es (a.result h s) := by
  cases a with
  | line text input => exact proceeds_line text input s
  | script path =>
    obtain ⟨es, hr⟩ := exists_runs h (.file path) s
    exact ⟨es, .script hr⟩
  | startupFile path => exact proceeds_startupFile path s
  | startupFiles home names => exact proceeds_startupFiles home names s
  | startUp => exact proceeds_startUp s
  | dialogue lines => exact proceeds_dialogue lines s
  | interaction startup =>
    cases startup with
    | false => exact proceeds_input s
    | true =>
      obtain ⟨es, hp⟩ := proceeds_startUp (h := h) s
      obtain ⟨es', hp'⟩ := proceeds_input (h := h) (s.startUp h)
      exact ⟨es ++ es', .greeted hp hp'⟩

/-! ### There is no other course -/

theorem Proceeds.unique {a : Activity} {es es' : List Event} (hp : Proceeds h a s es s')
    (hp' : Proceeds h a s es' s'') : es = es' ∧ s' = s'' := by
  induction hp generalizing es' s'' with
  | line hr =>
    cases hp' with
    | line hr' =>
      obtain ⟨rfl, -, rfl⟩ := hr.unique hr'
      exact ⟨rfl, rfl⟩
  | script hr =>
    cases hp' with
    | script hr' =>
      obtain ⟨rfl, -, rfl⟩ := hr.unique hr'
      exact ⟨rfl, rfl⟩
  | absent ht hk =>
    cases hp' with
    | absent => exact ⟨rfl, rfl⟩
    | unreadable ht' hk' =>
      obtain rfl := Except.error.inj (ht.symm.trans ht')
      exact absurd hk hk'
    | present ht' => cases ht.symm.trans ht'
  | unreadable ht hk =>
    cases hp' with
    | absent ht' hk' =>
      obtain rfl := Except.error.inj (ht.symm.trans ht')
      exact absurd hk' hk
    | unreadable ht' =>
      obtain rfl := Except.error.inj (ht.symm.trans ht')
      exact ⟨rfl, rfl⟩
    | present ht' => cases ht.symm.trans ht'
  | present ht hr =>
    cases hp' with
    | absent ht' | unreadable ht' => cases ht.symm.trans ht'
    | present ht' hr' =>
      obtain rfl := Except.ok.inj (ht.symm.trans ht')
      obtain ⟨rfl, -, rfl⟩ := hr.unique hr'
      exact ⟨rfl, rfl⟩
  | noFiles =>
    cases hp' with
    | noFiles => exact ⟨rfl, rfl⟩
  | lastFile _ ho ih =>
    cases hp' with
    | lastFile hp' => exact ih hp'
    | nextFile hp' ho' =>
      obtain ⟨rfl, rfl⟩ := ih hp'
      cases ho.symm.trans ho'
  | nextFile _ ho _ ih ih' =>
    cases hp' with
    | lastFile hp' ho' =>
      obtain ⟨rfl, rfl⟩ := ih hp'
      cases ho.symm.trans ho'
    | nextFile hp' _ hn =>
      obtain ⟨rfl, rfl⟩ := ih hp'
      obtain ⟨rfl, rfl⟩ := ih' hn
      exact ⟨rfl, rfl⟩
  | homeless hh =>
    cases hp' with
    | homeless => exact ⟨rfl, rfl⟩
    | atHome hh' => cases hh.symm.trans hh'
  | atHome hh _ ih =>
    cases hp' with
    | homeless hh' => cases hh.symm.trans hh'
    | atHome hh' hp' =>
      obtain rfl := Option.some.inj (hh.symm.trans hh')
      exact ih hp'
  | ended ho =>
    cases hp' with
    | ended => exact ⟨rfl, rfl⟩
    | closed ho' | cut ho' | blank ho' | command ho' => cases ho.symm.trans ho'
  | closed ho =>
    cases hp' with
    | ended ho' => cases ho.symm.trans ho'
    | closed => exact ⟨rfl, rfl⟩
  | cut ho =>
    cases hp' with
    | ended ho' => cases ho.symm.trans ho'
    | cut => exact ⟨rfl, rfl⟩
  | blank ho hb _ ih =>
    cases hp' with
    | ended ho' => cases ho.symm.trans ho'
    | blank _ _ hp' =>
      obtain ⟨rfl, rfl⟩ := ih hp'
      exact ⟨rfl, rfl⟩
    | command _ hb' => cases hb.symm.trans hb'
  | command ho hb ht hr _ ih =>
    cases hp' with
    | ended ho' => cases ho.symm.trans ho'
    | blank _ hb' => cases hb.symm.trans hb'
    | command _ _ ht' hr' hp' =>
      obtain rfl := ht.symm.trans ht'
      obtain ⟨rfl, -, rfl⟩ := hr.unique hr'
      obtain ⟨rfl, rfl⟩ := ih hp'
      exact ⟨rfl, rfl⟩
  | greeted _ _ ih ih' =>
    cases hp' with
    | greeted hp' hn =>
      obtain ⟨rfl, rfl⟩ := ih hp'
      obtain ⟨rfl, rfl⟩ := ih' hn
      exact ⟨rfl, rfl⟩
  | silent ho =>
    cases hp' with
    | silent => exact ⟨rfl, rfl⟩
    | reading ho' => cases ho.symm.trans ho'
  | reading ho hi _ ih =>
    cases hp' with
    | silent ho' => cases ho.symm.trans ho'
    | reading _ hi' hp' =>
      obtain ⟨rfl, rfl⟩ := Prod.mk.inj (hi.symm.trans hi')
      exact ih hp'

end AssistedShell.Session
