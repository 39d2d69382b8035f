import AssistedShell.Proofs.Session.Execution

/-! How deeply scripts are nested. Each script that begins also ends, at no time
are more of them active than the limit leaves room for, and one more is refused
before its first line. Afterwards the session counts as many as before. -/

namespace AssistedShell.Session

variable {σ : Type} {h : Host σ} {s s' : Session σ}

/-! ### Active scripts -/

/-- What an event adds to the number of active scripts. -/
def Event.weight : Event → Int
  | .entered _ => 1
  | .left => -1
  | _ => 0

/-- The number of scripts that have begun and not ended. -/
def active : List Event → Int
  | [] => 0
  | ev :: es => ev.weight + active es

@[simp] theorem active_nil : active [] = 0 := rfl

@[simp] theorem active_cons (ev : Event) (es : List Event) :
    active (ev :: es) = ev.weight + active es := rfl

@[simp] theorem active_append (es es' : List Event) :
    active (es ++ es') = active es + active es' := by
  induction es with
  | nil => rw [List.nil_append, active_nil, Int.zero_add]
  | cons ev es ih => rw [List.cons_append, active_cons, active_cons, ih, Int.add_assoc]

/-- Whether every script that begins also ends, and at no time more of them are active than there
is room for. -/
structure Nested (room : Nat) (es : List Event) : Prop where
  balanced : active es = 0
  bounded : ∀ before, before <+: es → 0 ≤ active before ∧ active before ≤ room

variable {room : Nat} {es es' : List Event}

theorem nested_nil : Nested room [] where
  balanced := rfl
  bounded := by
    intro before hb
    obtain rfl := List.prefix_nil.mp hb
    exact ⟨Int.le_refl _, Int.natCast_nonneg _⟩

theorem Nested.append (hn : Nested room es) (hn' : Nested room es') : Nested room (es ++ es') where
  balanced := by rw [active_append, hn.balanced, hn'.balanced, Int.zero_add]
  bounded := by
    rintro before ⟨after, he⟩
    rcases List.append_eq_append_iff.mp he with ⟨mid, rfl, -⟩ | ⟨mid, rfl, rfl⟩
    · exact hn.bounded before (List.prefix_append _ _)
    · rw [active_append, hn.balanced, Int.zero_add]
      exact hn'.bounded mid (List.prefix_append _ _)

/-- An event that neither begins nor ends a script. -/
theorem nested_singleton {ev : Event} (hw : ev.weight = 0) : Nested room [ev] where
  balanced := by rw [active_cons, hw, active_nil, Int.zero_add]
  bounded := by
    intro before hb
    rcases List.prefix_cons_iff.mp hb with rfl | ⟨mid, rfl, hm⟩
    · exact ⟨Int.le_refl _, Int.natCast_nonneg _⟩
    · obtain rfl := List.prefix_nil.mp hm
      rw [active_cons, hw, active_nil, Int.zero_add]
      exact ⟨Int.le_refl _, Int.natCast_nonneg _⟩

theorem Nested.cons {ev : Event} (hn : Nested room es) (hw : ev.weight = 0) :
    Nested room (ev :: es) := (nested_singleton hw).append hn

theorem Nested.concat {ev : Event} (hn : Nested room es) (hw : ev.weight = 0) :
    Nested room (es ++ [ev]) := hn.append (nested_singleton hw)

/-- A script around events that leave room for one more. -/
theorem Nested.script (hn : Nested room es) (path : String) :
    Nested (room + 1) (.entered path :: es ++ [.left]) where
  balanced := by
    rw [List.cons_append, active_cons, active_append, hn.balanced]
    rfl
  bounded := by
    intro before hb
    rw [List.cons_append] at hb
    rcases List.prefix_cons_iff.mp hb with rfl | ⟨mid, rfl, hm⟩
    · exact ⟨Int.le_refl _, Int.natCast_nonneg _⟩
    rw [active_cons, Event.weight]
    rcases List.prefix_concat_iff.mp hm with rfl | hm
    · rw [active_append, hn.balanced, active_cons, active_nil, Event.weight]
      omega
    · have hmid := hn.bounded mid hm
      omega

/-! ### Executions -/

theorem Runs.nested {t : Task} {n : Nat} (hr : Runs h t s es n s') :
    Nested (nestingLimit - s.depth) es := by
  induction hr with
  | plain => exact (nested_singleton rfl).cons rfl
  | exit => exact ((nested_singleton rfl).cons rfl).cons rfl
  | source _ _ ih => exact (ih.cons rfl).concat rfl
  | missing | refused | finished | cut => exact nested_nil
  | found _ _ ih => exact ih
  | @script path text s es n s' hl _ ih =>
    have hroom : nestingLimit - (s.depth + 1) + 1 = nestingLimit - s.depth := by omega
    rw [← hroom]
    exact ih.script path
  | idle _ _ ih => exact ih.cons rfl
  | last _ _ _ ih => exact ih
  | next _ hr _ _ ih ih' =>
    rw [hr.depth_eq] at ih'
    exact ih.append ih'

/-- With no room left, a file runs no line, whatever is in it. -/
theorem Runs.file_refused {path : String} {n : Nat} (hr : Runs h (.file path) s es n s')
    (hl : nestingLimit ≤ s.depth) : es = [] ∧ n = 1 := by
  cases hr with
  | missing => exact ⟨rfl, rfl⟩
  | found _ hs =>
    cases hs with
    | refused => exact ⟨rfl, rfl⟩
    | script hl' => exact absurd hl (Nat.not_le.mpr hl')

/-! ### Startup files -/

theorem depth_runNested (path text : String) (s : Session σ) :
    (runNested h path text s).2.depth = s.depth := by
  obtain ⟨es, hr⟩ := exists_runs h (.script path text) s
  exact hr.depth_eq

theorem depth_runStartupFile (s : Session σ) (path : String) :
    (s.runStartupFile h path).depth = s.depth := by
  rw [runStartupFile]
  cases h.readText s.system path with
  | ok text => exact depth_runNested path text s
  | error f =>
    dsimp only
    split
    · rfl
    · rfl

theorem depth_runStartupFiles (home : String) (names : List String) (s : Session σ) :
    (runStartupFiles h home names s).depth = s.depth := by
  induction names generalizing s with
  | nil => rfl
  | cons name names ih =>
    have hs := depth_runStartupFile (h := h) s (joinPath home name)
    rw [runStartupFiles]
    split
    · exact hs
    · exact (ih _).trans hs

/-- Every task comes to its end, whatever the system does: it has one execution, with the result
that the session's functions give. In it each script that begins also ends, at no time more scripts
are active than the limit leaves room for, and the session then counts as many as before. With no
room left, a file runs no line, and its status is 1. The startup files keep the count, too. -/
theorem task_ends (h : Host σ) (s : Session σ) :
    (∀ t : Task, ∃ es, Runs h t s es (t.result h s).1 (t.result h s).2 ∧
      (∀ es' n s', Runs h t s es' n s' → es' = es ∧ (n, s') = t.result h s) ∧
      Nested (nestingLimit - s.depth) es ∧ (t.result h s).2.depth = s.depth ∧
      ∀ path, t = .file path → nestingLimit ≤ s.depth → es = [] ∧ (t.result h s).1 = 1) ∧
    (∀ path, (s.runStartupFile h path).depth = s.depth) ∧ (s.startUp h).depth = s.depth := by
  refine ⟨?_, depth_runStartupFile s, ?_⟩
  · intro t
    obtain ⟨es, hr⟩ := exists_runs h t s
    refine ⟨es, hr, ?_, hr.nested, hr.depth_eq, ?_⟩
    · intro es' n s' hr'
      obtain ⟨rfl, rfl, rfl⟩ := hr'.unique hr
      exact ⟨rfl, rfl⟩
    · rintro path rfl hl
      exact hr.file_refused hl
  · rw [startUp]
    cases s.home? h with
    | none => rfl
    | some home => exact depth_runStartupFiles home _ s

end AssistedShell.Session
