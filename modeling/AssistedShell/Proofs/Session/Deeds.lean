import AssistedShell.Proofs.Session.CommandHistory

/-! The lines performed in a session, one after another, those of the startup
files and of scripts inside one another included. Each meets the session that
the one before it left, but for what concerns neither the assistant nor a
breakdown, and nothing is performed after a breakdown. -/

namespace AssistedShell.Session

variable {σ : Type}

/-- A line that is performed, and the session that it meets. -/
structure Deed (σ : Type) where
  line : String
  parsed : Except SyntaxFault (Option Pipeline)
  before : Session σ

variable (h : Host σ)

/-- The status of the line and the session after it. -/
def Deed.result (x : Deed σ) : Nat × Session σ := (Task.line x.line x.parsed).result h x.before

/-! ### The lines that are performed -/

/-- The lines performed when the text of a script is run, which is known under a path. -/
abbrev Survey (σ : Type) := (path text : String) → Session σ → List (Deed σ)

def fileDeeds (survey : Survey σ) (path : String) (s : Session σ) : List (Deed σ) :=
  let path := joinPath s.directory path
  match h.readText s.system path with
  | .ok text => survey path text s
  | .error _ => []

/-- In the place of a line that runs a script stand the lines of the script. -/
def lineDeeds (survey : Survey σ) (line : String) (parsed : Except SyntaxFault (Option Pipeline))
    (s : Session σ) : List (Deed σ) :=
  match demand parsed with
  | .source path => fileDeeds h survey path s
  | _ => [⟨line, parsed, s⟩]

def linesDeeds (script : ScriptRunner σ) (survey : Survey σ) (lines : LineSource)
    (s : Session σ) : List (Deed σ) :=
  match lines with
  | [] | none :: _ => []
  | some line :: rest =>
    if isIdle line then linesDeeds script survey rest s
    else
      let taken := s.parse line rest
      let after := (perform h script line taken.value s).2
      lineDeeds h survey line taken.value s ++
        if after.isOver then [] else linesDeeds script survey taken.rest after
termination_by lines.length
decreasing_by
  · simp
  · exact Nat.lt_succ_of_le (length_parse_le _ _ _)

/-- The lines of a script with room for `levels` scripts inside one another, itself included. -/
def scriptDeeds : Nat → Survey σ
  | 0, _, _, _ => []
  | levels + 1, _, text, s =>
    linesDeeds h (runScript h levels) (scriptDeeds levels) (text.textLines.map some)
      { s with depth := s.depth + 1 }

/-- The lines of a script that is run where the session stands. -/
def nestedDeeds : Survey σ := fun path text s => scriptDeeds h (nestingLimit - s.depth) path text s

/-- The lines performed in the course of a task. -/
def Task.deeds : Task → Session σ → List (Deed σ)
  | .line text parsed, s => lineDeeds h (nestedDeeds h) text parsed s
  | .lines rest _, s =>
    let levels := nestingLimit - s.depth
    linesDeeds h (runScript h levels) (scriptDeeds h levels) rest s
  | .script path text, s => nestedDeeds h path text s
  | .file path, s => fileDeeds h (nestedDeeds h) path s

def startupFileDeeds (path : String) (s : Session σ) : List (Deed σ) :=
  match h.readText s.system path with
  | .ok text => (Task.script path text).deeds h s
  | .error _ => []

def startupFilesDeeds (home : String) : List String → Session σ → List (Deed σ)
  | [], _ => []
  | name :: names, s =>
    let after := s.runStartupFile h (joinPath home name)
    startupFileDeeds h (joinPath home name) s ++
      if after.isOver then [] else startupFilesDeeds home names after

def startUpDeeds (s : Session σ) : List (Deed σ) :=
  match s.home? h with
  | none => []
  | some home => startupFilesDeeds h home Home.startupFiles s

def dialogueDeeds (lines : LineSource) (s : Session σ) : List (Deed σ) :=
  if s.isOver then []
  else
    let s := s.reapJobs h
    match lines with
    | [] | none :: _ => []
    | some line :: rest =>
      if line.isAllBlank then dialogueDeeds rest s
      else
        let s := s.recordHistory h line
        let taken := s.parse line rest
        (Task.line line taken.value).deeds h s ++
          dialogueDeeds taken.rest (perform h (runNested h) line taken.value s).2
termination_by lines.length
decreasing_by
  · simp
  · exact Nat.lt_succ_of_le (length_parse_le _ _ _)

/-- The lines performed in an activity. -/
def Activity.deeds : Activity → Session σ → List (Deed σ)
  | .line text input, s => (Task.line text (s.parse text input).value).deeds h s
  | .script path, s => (Task.file path).deeds h s
  | .startupFile path, s => startupFileDeeds h path s
  | .startupFiles home names, s => startupFilesDeeds h home names s
  | .startUp, s => startUpDeeds h s
  | .dialogue lines, s => dialogueDeeds h lines s
  | .interaction startup, s =>
    (if startup then startUpDeeds h s else []) ++
      dialogueDeeds h (s.inputOf h startup) (s.opened h startup)

/-! ### Continuations of a session -/

/-- What may happen to a session from outside. -/
inductive Turn (σ : Type) where
  | put (activity : Activity)
  /-- The system goes on by itself. -/
  | elapsed (system : σ)
  | reaped
  | noted (line : String)

def Turn.result : Turn σ → Session σ → Session σ
  | .put a, s => a.result h s
  | .elapsed system, s => { s with system }
  | .reaped, s => s.reapJobs h
  | .noted line, s => s.recordHistory h line

def Turn.deeds : Turn σ → Session σ → List (Deed σ)
  | .put a, s => a.deeds h s
  | _, _ => []

/-- The session after some turns. A shell that broke down takes none. -/
def continued : List (Turn σ) → Session σ → Session σ
  | [], s => s
  | turn :: turns, s => if s.crashed then s else continued turns (turn.result h s)

/-- The lines performed in some turns. -/
def deeds : List (Turn σ) → Session σ → List (Deed σ)
  | [], _ => []
  | turn :: turns, s =>
    if s.crashed then [] else turn.deeds h s ++ deeds turns (turn.result h s)

/-! ### One line after another -/

/-- Whether nothing has changed that concerns the assistant or a breakdown. -/
structure Level (s t : Session σ) : Prop where
  assistant : t.assistant = s.assistant
  crashed : t.crashed = s.crashed

/-- The lines performed between two sessions. None of them runs a script, each meets the session
that the one before it left, and a breakdown is the end. -/
inductive Succession : Session σ → List (Deed σ) → Session σ → Prop where
  | done {s t} : Level s t → Succession s [] t
  | deed {s x xs t} : Level s x.before → (∀ path, demand x.parsed ≠ .source path) →
      ((x.result h).2.crashed = true → xs = []) → Succession (x.result h).2 xs t →
      Succession s (x :: xs) t

variable {h} {s s' t t' : Session σ} {xs ys : List (Deed σ)}

theorem Level.refl (s : Session σ) : Level s s := ⟨rfl, rfl⟩

theorem Level.trans {u : Session σ} (hst : Level s t) (htu : Level t u) : Level s u :=
  ⟨htu.assistant.trans hst.assistant, htu.crashed.trans hst.crashed⟩

theorem Level.succession (hl : Level s s') (hs : Succession h s' xs t) : Succession h s xs t := by
  cases hs with
  | done hl' => exact .done (hl.trans hl')
  | deed hl' hd hx hr => exact .deed (hl.trans hl') hd hx hr

theorem Succession.append {u : Session σ} (hst : Succession h s xs t)
    (htu : Succession h t ys u) (hc : t.crashed = true → ys = []) :
    Succession h s (xs ++ ys) u := by
  induction hst with
  | done hl => exact hl.succession htu
  | deed hl hd hx hr ih =>
    refine .deed hl hd (fun hk => ?_) (ih htu hc)
    -- after a breakdown no line is left before `t`, and so none after it
    obtain rfl := hx hk
    cases hr with
    | done hl' => exact hc (hl'.crashed.trans hk)

theorem Succession.level (hs : Succession h s xs t) (hl : Level t t') : Succession h s xs t' := by
  have ha := hs.append (.done hl) fun _ => rfl
  rwa [List.append_nil] at ha

/-- What comes after a session that is not to end. -/
theorem Succession.append_of_isOver {u : Session σ} (hst : Succession h s xs t)
    (ht : t.isOver = false) (htu : Succession h t ys u) : Succession h s (xs ++ ys) u := by
  refine hst.append htu fun hk => ?_
  cases (isOver_eq_false.mp ht).2.symm.trans hk

/-! ### Lines and scripts -/

/-- Whether a survey tells the lines that a runner performs. -/
def Surveys (h : Host σ) (script : ScriptRunner σ) (survey : Survey σ) : Prop :=
  ∀ path text s, Succession h s (survey path text s) (script path text s).2

variable {script : ScriptRunner σ} {survey : Survey σ}

theorem level_report (s : Session σ) (message : String) : Level s (s.report h message) := ⟨rfl, rfl⟩

theorem succession_file (hs : Surveys h script survey) (path : String) (s : Session σ) :
    Succession h s (fileDeeds h survey path s) (runFile h script path s).2 := by
  rw [fileDeeds, runFile]
  cases h.readText s.system (joinPath s.directory path) with
  | error f => exact .done (level_report s _)
  | ok text => exact hs _ text s

/-- A line that runs no script is performed in one go, however scripts are run. -/
theorem succession_perform {line : String} {parsed : Except SyntaxFault (Option Pipeline)}
    (hd : ∀ path, demand parsed ≠ .source path) (script : ScriptRunner σ) (s : Session σ) :
    Succession h s [⟨line, parsed, s⟩] (perform h script line parsed s).2 := by
  have hp : perform h script line parsed s = (Deed.mk line parsed s).result h := by
    cases hd' : demand parsed with
    | exit arguments => rw [perform_of_exit hd', Deed.result, Task.result, perform_of_exit hd']
    | source path => exact absurd hd' (hd path)
    | plain => exact perform_of_plain hd' script _
  rw [hp]
  exact .deed (.refl s) hd (fun _ => rfl) (.done (.refl _))

theorem succession_line (hs : Surveys h script survey) (line : String)
    (parsed : Except SyntaxFault (Option Pipeline)) (s : Session σ) :
    Succession h s (lineDeeds h survey line parsed s) (perform h script line parsed s).2 := by
  rw [lineDeeds]
  cases hd : demand parsed with
  | source path =>
    rw [perform_of_source hd]
    exact (succession_file hs path s).level ⟨rfl, rfl⟩
  | exit | plain => exact succession_perform (by rw [hd]; nofun) script s

theorem succession_lines (hs : Surveys h script survey) (lines : LineSource) (status : Nat)
    (s : Session σ) :
    Succession h s (linesDeeds h script survey lines s) (runLines h script lines status s).2 := by
  fun_induction runLines h script lines status s with
  | case1 status s =>
    rw [linesDeeds]
    exact .done (.refl s)
  | case2 status s =>
    rw [linesDeeds]
    exact .done (.refl s)
  | case3 status s line rest hi ih =>
    rw [linesDeeds, if_pos hi]
    exact ih
  | case4 status s line rest hi taken n after hp hover =>
    have hl := succession_line hs line taken.value s
    rw [hp] at hl
    rw [linesDeeds, if_neg hi]
    dsimp only
    rw [hp, if_pos hover, List.append_nil]
    exact hl
  | case5 status s line rest hi taken n after hp hover ih =>
    have hl := succession_line hs line taken.value s
    rw [hp] at hl
    rw [linesDeeds, if_neg hi]
    dsimp only
    rw [hp, if_neg hover]
    exact hl.append_of_isOver (Bool.eq_false_iff.mpr hover) ih

theorem surveys_runScript (levels : Nat) :
    Surveys h (runScript h levels) (scriptDeeds h levels) := by
  induction levels with
  | zero => exact fun path text s => .done (level_report s _)
  | succ levels ih =>
    intro path text s
    have hl := succession_lines ih (text.textLines.map some) 0 { s with depth := s.depth + 1 }
    have hin : Level s { s with depth := s.depth + 1 } := ⟨rfl, rfl⟩
    exact (hin.succession hl).level ⟨rfl, rfl⟩

theorem surveys_runNested : Surveys h (runNested h) (nestedDeeds h) := fun path text s =>
  surveys_runScript (nestingLimit - s.depth) path text s

/-! ### Nothing is left out -/

/-- What a line of a script comes to, with room for as many scripts as the depth leaves. -/
theorem Runs.perform_runScript {line : String} {parsed : Except SyntaxFault (Option Pipeline)}
    {es : List Event} {n : Nat} (hr : Runs h (.line line parsed) s es n s') :
    perform h (runScript h (nestingLimit - s.depth)) line parsed s = (n, s') := by
  obtain ⟨es', hr'⟩ := exists_runs_line (executes_runScript rfl) line parsed
  obtain ⟨-, hn, hs⟩ := hr'.unique hr
  exact Prod.ext hn hs

/-- Every line that is performed in the course of a task stands in the list, unless it runs a script
itself. -/
theorem Performs.exists_deed {task : Task} {q : Except SyntaxFault (Option Pipeline)}
    (hp : Performs h task s q t) (hq : ∀ path, demand q ≠ .source path) :
    ∃ x ∈ task.deeds h s, x.parsed = q ∧ x.before = t := by
  induction hp with
  | @here text parsed s =>
    refine ⟨⟨text, parsed, s⟩, ?_, rfl, rfl⟩
    rw [Task.deeds, lineDeeds]
    cases hd : demand parsed with
    | source path => exact absurd hd (hq path)
    | exit | plain => exact List.mem_singleton_self _
  | source hd _ ih =>
    rw [Task.deeds, lineDeeds, hd]
    exact ih hq
  | file ht _ ih =>
    rw [Task.deeds, fileDeeds, ht]
    exact ih hq
  | @script path text s q t hl _ ih =>
    obtain ⟨levels, hlevels⟩ := Nat.exists_eq_add_of_lt hl
    have hout : nestingLimit - s.depth = levels + 1 := by omega
    have hin : nestingLimit - (s.depth + 1) = levels := by omega
    rw [Task.deeds, nestedDeeds, hout, scriptDeeds]
    simp only [Task.deeds, hin] at ih
    exact ih hq
  | idle hi _ ih =>
    rw [Task.deeds, linesDeeds, if_pos hi]
    exact ih hq
  | first hi _ ih =>
    obtain ⟨x, hx, hxq⟩ := ih hq
    refine ⟨x, ?_, hxq⟩
    rw [Task.deeds, linesDeeds, if_neg (Bool.eq_false_iff.mp hi)]
    exact List.mem_append_left _ hx
  | later hi hr ho _ ih =>
    obtain ⟨x, hx, hxq⟩ := ih hq
    refine ⟨x, ?_, hxq⟩
    rw [Task.deeds, linesDeeds, if_neg (Bool.eq_false_iff.mp hi)]
    dsimp only
    -- the line keeps the depth, so that the lines after it have the same room for scripts
    rw [hr.perform_runScript, if_neg (Bool.eq_false_iff.mp ho), ← hr.depth_eq]
    exact List.mem_append_right _ hx

/-! ### Activities -/

theorem level_reapJobs (s : Session σ) : Level s (s.reapJobs h) := by
  obtain ⟨jobs, system, ht⟩ := exists_reapJobs h s
  rw [ht]
  exact ⟨rfl, rfl⟩

theorem succession_startupFile (path : String) (s : Session σ) :
    Succession h s (startupFileDeeds h path s) (s.runStartupFile h path) := by
  rw [startupFileDeeds, runStartupFile]
  cases h.readText s.system path with
  | ok text => exact surveys_runNested path text s
  | error f =>
    dsimp only
    split
    · exact .done (.refl s)
    · exact .done (level_report s _)

theorem succession_startupFiles (home : String) (names : List String) (s : Session σ) :
    Succession h s (startupFilesDeeds h home names s) (runStartupFiles h home names s) := by
  induction names generalizing s with
  | nil => exact .done (.refl s)
  | cons name names ih =>
    have hf := succession_startupFile (h := h) (joinPath home name) s
    rw [startupFilesDeeds, runStartupFiles]
    by_cases ho : (s.runStartupFile h (joinPath home name)).isOver = true
    · simp only [if_pos ho, List.append_nil]
      exact hf
    · simp only [if_neg ho]
      exact hf.append_of_isOver (Bool.eq_false_iff.mpr ho) (ih _)

theorem succession_startUp (s : Session σ) :
    Succession h s (startUpDeeds h s) (s.startUp h) := by
  rw [startUpDeeds, startUp]
  cases s.home? h with
  | none => exact .done (.refl s)
  | some home => exact succession_startupFiles home Home.startupFiles s

/-- In a dialogue nothing is performed once the session is to end. -/
theorem dialogueDeeds_of_isOver (lines : LineSource) (ho : s.isOver = true) :
    dialogueDeeds h lines s = [] := by
  rw [dialogueDeeds, if_pos ho]

theorem succession_dialogue (lines : LineSource) (s : Session σ) :
    Succession h s (dialogueDeeds h lines s) (converse h lines s).2 := by
  fun_induction converse h lines s with
  | case1 lines s ho =>
    rw [dialogueDeeds_of_isOver lines ho]
    exact .done (.refl s)
  | case2 s ho =>
    rw [dialogueDeeds, if_neg ho]
    exact .done (level_reapJobs s)
  | case3 s ho =>
    rw [dialogueDeeds, if_neg ho]
    exact .done (level_reapJobs s)
  | case4 s ho _ line rest hb ih =>
    rw [dialogueDeeds, if_neg ho]
    dsimp only
    rw [if_pos hb]
    exact (level_reapJobs s).succession ih
  | case5 s ho _ line rest hb t taken ih =>
    have hl := succession_line (h := h) surveys_runNested line taken.value t
    have ht : Level s t := (level_reapJobs (h := h) s).trans ⟨rfl, rfl⟩
    rw [dialogueDeeds, if_neg ho]
    dsimp only
    rw [if_neg hb]
    refine (ht.succession hl).append ih fun hk => dialogueDeeds_of_isOver _ ?_
    rw [isOver, hk, Bool.or_true]

theorem succession_interaction (startup : Bool) (s : Session σ) :
    Succession h s (Activity.deeds h (.interaction startup) s) (s.interact h startup).2 := by
  have hg : Succession h s (if startup then startUpDeeds h s else []) (s.greeted h startup) := by
    rw [greeted]
    cases startup with
    | false => exact .done (.refl s)
    | true => exact succession_startUp s
  have ho : Level (s.greeted h startup) (s.opened h startup) := by
    rw [opened]
    split
    · exact .refl _
    · exact ⟨rfl, rfl⟩
  rw [interact_eq, Activity.deeds]
  refine (hg.level ho).append (succession_dialogue _ _) fun hk => dialogueDeeds_of_isOver _ ?_
  rw [isOver, hk, Bool.or_true]

theorem succession_put (a : Activity) (s : Session σ) :
    Succession h s (a.deeds h s) (a.result h s) := by
  cases a with
  | line text input => exact succession_line surveys_runNested text _ s
  | script path => exact succession_file surveys_runNested path s
  | startupFile path => exact succession_startupFile path s
  | startupFiles home names => exact succession_startupFiles home names s
  | startUp => exact succession_startUp s
  | dialogue lines => exact succession_dialogue lines s
  | interaction startup => exact succession_interaction startup s

/-! ### Continuations -/

theorem Turn.succession (turn : Turn σ) (s : Session σ) :
    Succession h s (turn.deeds h s) (turn.result h s) := by
  cases turn with
  | put a => exact succession_put a s
  | elapsed | noted => exact .done ⟨rfl, rfl⟩
  | reaped => exact .done (level_reapJobs s)

/-- The lines performed in a continuation come one after another. -/
theorem succession_continued (h : Host σ) (turns : List (Turn σ)) (s : Session σ) :
    Succession h s (deeds h turns s) (continued h turns s) := by
  induction turns generalizing s with
  | nil => exact .done (.refl s)
  | cons turn turns ih =>
    rw [deeds, continued]
    by_cases hc : s.crashed = true
    · rw [if_pos hc, if_pos hc]
      exact .done (.refl s)
    · rw [if_neg hc, if_neg hc]
      refine (turn.succession s).append (ih _) fun hk => ?_
      cases turns with
      | nil => rfl
      | cons => rw [deeds, if_pos hk]

end AssistedShell.Session
