import AssistedShell.CommandLine
import AssistedShell.Machine.Kernel
import AssistedShell.Proofs.Session.ExitStatus
import AssistedShell.Proofs.Session.Proceedings

/-! The end of a session. Once `exit` has run, at whatever depth of scripts, the
lines and scripts that have begun end, and nothing else begins. The first status
stays, and it is the exit status of the process. -/

namespace AssistedShell

namespace Session

variable {σ : Type} {h : Host σ} {s s' s'' t : Session σ} {last : Nat} {es es' : List Event}

/-! ### Chronologies -/

/-- Whether an event is a run of `exit`. -/
def Event.isExit : Event → Bool
  | .exit _ _ => true
  | _ => false

/-- Whether an event is only the end of what had begun. -/
def Event.unwinds : Event → Bool
  | .executed _ | .left => true
  | _ => false

/-- The status of the last line executed, which has been `last` so far. -/
def Event.statusAfter (last : Nat) : Event → Nat
  | .executed status => status
  | _ => last

/-- The status of the last line executed in a chronology. -/
def lastStatusOf (last : Nat) (es : List Event) : Nat := es.foldl Event.statusAfter last

theorem lastStatusOf_append : lastStatusOf last (es ++ es') = lastStatusOf (lastStatusOf last es) es' :=
  List.foldl_append

/-- What a chronology makes of a latch that is not set. The first `exit` sets it, and only ends of
what had begun come after that. -/
inductive Latches (last : Nat) (es : List Event) : Option Nat → Prop where
  | unset : (∀ ev ∈ es, ev.isExit = false) → Latches last es none
  | set {before arguments status after} : es = before ++ .exit arguments status :: after →
      (∀ ev ∈ before, ev.isExit = false) →
      ExitStatus (lastStatusOf last before) arguments status →
      (∀ ev ∈ after, ev.unwinds) → Latches last es (some status)

/-- Events without `exit` before those that decide. -/
theorem Latches.after {latch : Option Nat} (hl : Latches (lastStatusOf last es) es' latch)
    (he : ∀ ev ∈ es, ev.isExit = false) : Latches last (es ++ es') latch := by
  cases hl with
  | unset hn => exact .unset (List.forall_mem_append.mpr ⟨he, hn⟩)
  | @set before arguments status after hes hb hx ha =>
    rw [hes, ← List.append_assoc]
    rw [← lastStatusOf_append] at hx
    exact .set rfl (List.forall_mem_append.mpr ⟨he, hb⟩) hx ha

/-- One more end of what had begun. -/
theorem Latches.concat {latch : Option Nat} {ev : Event} (hl : Latches last es latch)
    (hu : ev.unwinds) : Latches last (es ++ [ev]) latch := by
  cases hl with
  | unset hn =>
    refine .unset (List.forall_mem_append.mpr ⟨hn, List.forall_mem_singleton.mpr ?_⟩)
    cases ev with
    | exit => cases hu
    | _ => rfl
  | @set before arguments status after hes hb hx ha =>
    rw [hes, List.append_assoc, List.cons_append]
    exact .set rfl hb hx (List.forall_mem_append.mpr ⟨ha, List.forall_mem_singleton.mpr hu⟩)

/-! ### What an execution does to the latch -/

theorem isOver_eq_false : s.isOver = false ↔ s.exitLatch = none ∧ s.crashed = false := by
  rw [isOver, Bool.or_eq_false_iff, Option.isSome_eq_false_iff, Option.isNone_iff_eq_none]

/-- How a session goes on through events to another one. -/
structure Orderly (s : Session σ) (es : List Event) (s' : Session σ) : Prop where
  lastStatus : s'.lastStatus = lastStatusOf s.lastStatus es
  kept : ∀ status, s.exitLatch = some status → s'.exitLatch = some status
  latches : s.isOver = false → Latches s.lastStatus es s'.exitLatch
  sound : s.isOver = false → s'.exitLatch.isSome → s'.crashed = false

/-- Events without `exit` that leave the latch as it is. -/
theorem orderly_of_latch_eq (he : ∀ ev ∈ es, ev.isExit = false)
    (hs : s'.lastStatus = lastStatusOf s.lastStatus es) (hl : s'.exitLatch = s.exitLatch) :
    Orderly s es s' where
  lastStatus := hs
  kept := by
    intro status hset
    rw [hl, hset]
  latches := by
    intro ho
    rw [hl, (isOver_eq_false.mp ho).1]
    exact .unset he
  sound := by
    intro ho hset
    rw [hl, (isOver_eq_false.mp ho).1] at hset
    cases hset

theorem Orderly.trans (hr : Orderly s es s') (ho : s.isOver = false → s'.isOver = false)
    (hr' : Orderly s' es' s'') : Orderly s (es ++ es') s'' where
  lastStatus := by rw [hr'.lastStatus, hr.lastStatus, lastStatusOf_append]
  kept := by
    intro status hset
    exact hr'.kept status (hr.kept status hset)
  latches := by
    intro hs
    have hl : Latches s.lastStatus es s'.exitLatch := hr.latches hs
    rw [(isOver_eq_false.mp (ho hs)).1] at hl
    cases hl with
    | unset he =>
      have hl' : Latches s'.lastStatus es' s''.exitLatch := hr'.latches (ho hs)
      rw [hr.lastStatus] at hl'
      exact hl'.after he
  sound := by
    intro hs
    exact hr'.sound (ho hs)

/-- Going on after the end of a session comes to nothing. -/
theorem Orderly.append (hr : Orderly s es s') (ho : s'.isOver = true → es' = [] ∧ s'' = s')
    (hr' : Orderly s' es' s'') : Orderly s (es ++ es') s'' := by
  by_cases hover : s'.isOver = true
  · obtain ⟨rfl, rfl⟩ := ho hover
    rwa [List.append_nil]
  · exact hr.trans (fun _ => Bool.eq_false_iff.mpr hover) hr'

theorem orderly_nil (hs : s'.lastStatus = s.lastStatus) (hl : s'.exitLatch = s.exitLatch) :
    Orderly s [] s' := orderly_of_latch_eq (List.forall_mem_nil _) hs hl

theorem isOver_congr (hl : t.exitLatch = s.exitLatch) (hc : t.crashed = s.crashed) :
    t.isOver = s.isOver := by rw [isOver, hl, hc, isOver]

/-- A change at the beginning that concerns neither status nor latch. -/
theorem Orderly.of_eq (hr : Orderly t es s') (hs : t.lastStatus = s.lastStatus)
    (hl : t.exitLatch = s.exitLatch) (hc : t.crashed = s.crashed) : Orderly s es s' :=
  (orderly_nil hs hl).trans (fun ho => (isOver_congr hl hc).trans ho) hr

/-- A quiet event at the beginning. -/
theorem Orderly.cons (hr : Orderly s es s') (ev : Event) (he : ev.isExit = false)
    (hs : ev.statusAfter s.lastStatus = s.lastStatus) : Orderly s (ev :: es) s' := by
  have hq : Orderly s [ev] s := orderly_of_latch_eq (List.forall_mem_singleton.mpr he) hs.symm rfl
  exact hq.trans id hr

/-- The end of what had begun. -/
theorem Orderly.concat (hr : Orderly s es s') (ev : Event) (hu : ev.unwinds)
    (hs : s''.lastStatus = ev.statusAfter s'.lastStatus) (hl : s''.exitLatch = s'.exitLatch)
    (hc : s''.crashed = s'.crashed) : Orderly s (es ++ [ev]) s'' where
  lastStatus := by
    rw [hs, hr.lastStatus, lastStatusOf_append]
    rfl
  kept := by
    intro status hset
    rw [hl, hr.kept status hset]
  latches := by
    intro ho
    rw [hl]
    exact (hr.latches ho).concat hu
  sound := by
    intro ho
    rw [hl, hc]
    exact hr.sound ho

/-! ### Executions -/

theorem orderly_exit {line : String} {arguments : List String} {n : Nat}
    (he : s.exit h arguments = (n, s')) :
    Orderly s [.taken line, .exit arguments n, .executed n] { s' with lastStatus := n } := by
  have hx : ExitStatus s.lastStatus arguments n := by
    have hx := exit_status h s arguments
    rwa [he] at hx
  obtain ⟨system, rfl⟩ := exit_snd h he
  refine ⟨rfl, ?_, ?_, ?_⟩
  · intro status hset
    dsimp only
    rw [hset]
    rfl
  · intro ho
    have hb : ∀ ev ∈ [Event.taken line], ev.isExit = false := List.forall_mem_singleton.mpr rfl
    dsimp only
    rw [(isOver_eq_false.mp ho).1]
    exact .set rfl hb hx (List.forall_mem_singleton.mpr rfl)
  · intro ho _
    exact (isOver_eq_false.mp ho).2

theorem Runs.orderly {t : Task} {n : Nat} (hr : Runs h t s es n s') : Orderly s es s' := by
  induction hr with
  | plain hd hp =>
    obtain ⟨-, hl, hn⟩ := perform_plain_steady hd (hp (runNested h))
    exact orderly_of_latch_eq (by simp [Event.isExit]) hn hl
  | exit _ he => exact orderly_exit he
  | @source line _ _ _ _ n _ _ _ ih =>
    exact (ih.cons (.taken line) rfl rfl).concat (.executed n) rfl rfl rfl rfl
  | missing | refused | finished | cut => exact orderly_nil rfl rfl
  | found _ _ ih => exact ih
  | @script path _ s _ _ _ _ _ ih =>
    have hs : Orderly s _ _ := ih.of_eq rfl rfl rfl
    exact (hs.cons (.entered path) rfl rfl).concat .left rfl rfl rfl rfl
  | @idle line _ _ _ _ _ _ _ _ ih => exact ih.cons (.passed line) rfl rfl
  | last _ _ _ ih => exact ih
  | next _ _ ho _ ih ih' => exact ih.trans (fun _ => ho) ih'

theorem Proceeds.dialogue_of_isOver {lines : LineSource} (hp : Proceeds h (.dialogue lines) s es s')
    (ho : s.isOver = true) : es = [] ∧ s' = s := by
  cases hp with
  | ended => exact ⟨rfl, rfl⟩
  | closed ho' | cut ho' | blank ho' | command ho' => cases ho.symm.trans ho'

theorem Proceeds.interaction_of_isOver (hp : Proceeds h (.interaction false) s es s')
    (ho : s.isOver = true) : es = [] ∧ s' = s := by
  cases hp with
  | silent => exact ⟨rfl, rfl⟩
  | reading ho' => cases ho.symm.trans ho'

theorem Proceeds.orderly {a : Activity} (hp : Proceeds h a s es s') : Orderly s es s' := by
  induction hp with
  | line hr | script hr | present _ hr => exact hr.orderly
  | absent | unreadable | noFiles | homeless | ended | silent => exact orderly_nil rfl rfl
  | lastFile _ _ ih => exact ih
  | nextFile _ ho _ ih ih' => exact ih.trans (fun _ => ho) ih'
  | atHome _ _ ih => exact ih
  | @closed s | @cut _ s =>
    obtain ⟨jobs, system, ht⟩ := exists_reapJobs h s
    rw [ht]
    exact orderly_nil rfl rfl
  | @blank line _ s _ _ _ _ _ ih =>
    obtain ⟨jobs, system, ht⟩ := exists_reapJobs h s
    rw [ht] at ih
    have hs : Orderly s _ _ := ih.of_eq rfl rfl rfl
    exact hs.cons (.passed line) rfl rfl
  | @command _ _ s _ _ _ _ _ _ _ _ ht hr hp ih =>
    obtain ⟨jobs, system, hj⟩ := exists_reapJobs h s
    rw [hj] at ht
    subst ht
    have hs : Orderly s _ _ := hr.orderly.of_eq rfl rfl rfl
    exact hs.append hp.dialogue_of_isOver ih
  | greeted _ hp ih ih' => exact ih.append hp.interaction_of_isOver ih'
  | reading _ _ _ ih => exact ih.of_eq rfl rfl rfl

/-- A latch that is set stays set, whatever comes. -/
theorem exitLatch_foldl {status : Nat} (later : List Activity) (hs : s.exitLatch = some status) :
    (later.foldl (fun t b => b.result h t) s).exitLatch = some status := by
  induction later generalizing s with
  | nil => exact hs
  | cons a later ih =>
    obtain ⟨es, hp⟩ := exists_proceeds h a s
    exact ih (hp.orderly.kept status hs)

/-! ### Processes -/

/-- Only a session that is not to end fails at a command line. -/
theorem converse_of_isOver (lines : LineSource) (s : Session σ)
    (ho : (converse h lines s).2.isOver = true) : (converse h lines s).1 = .ok () := by
  fun_induction converse h lines s with
  | case1 | case2 => rfl
  | case3 s hs t =>
    obtain ⟨jobs, system, ht⟩ := exists_reapJobs h s
    rw [show t = { s with jobs, system } from ht] at ho
    exact absurd ho hs
  | case4 _ _ _ _ _ _ ih => exact ih ho
  | case5 _ _ _ _ _ _ _ _ ih => exact ih ho

theorem interact_of_isOver {startup : Bool} (ho : (s.interact h startup).2.isOver = true) :
    (s.interact h startup).1 = .ok () := by
  rw [interact] at ho ⊢
  generalize (if startup = true then s.startUp h else s) = t at ho ⊢
  dsimp only at ho ⊢
  by_cases ht : t.isOver = true
  · rw [if_pos ht]
  · rw [if_neg ht] at ho ⊢
    exact converse_of_isOver _ _ ho

end Session

namespace CommandLine

open Session

variable {σ : Type} {h : Host σ} {s : Session σ}

/-- What a session is put to by its options. -/
def Options.activity (o : Options) : Activity :=
  match o.command, o.script with
  | some command, _ => .line command []
  | none, some path => .script path
  | none, none => .interaction !o.bare

theorem conduct_of_isOver {o : Options} (ho : (o.activity.result h s).isOver = true) :
    conduct h o s = conclude (o.activity.result h s) := by
  rcases o with ⟨_ | command, model, bare, _ | path⟩
  · have hi : (s.interact h (!bare)).1 = .ok () := interact_of_isOver ho
    rw [conduct]
    dsimp only [Options.activity, Activity.result]
    rcases hr : s.interact h (!bare) with ⟨r, t⟩
    rw [hr] at hi
    obtain rfl := hi
    rfl
  · rfl
  · rfl
  · rfl

theorem conclude_of_latch {status : Nat} (hl : s.exitLatch = some status)
    (hc : s.crashed = false) : (conclude s).1 = status := by
  rw [conclude, hc, exitStatus, hl]
  rfl

/-- Whatever a session without a latch is put to has one course, and in it the first `exit` is the
end: no line is taken up after it, no script begins, and no line is passed over, at any depth. Its
status is that of its argument or of the last line before it. Whatever the session may be put to
later, the latch keeps that status, and a process that ends with it exits with it. -/
theorem exit_unwinds (h : Host σ) (a : Activity) (s : Session σ) (hl : s.exitLatch = none)
    (hc : s.crashed = false) :
    ∃ es, Proceeds h a s es (a.result h s) ∧
      (∀ es' s', Proceeds h a s es' s' → es' = es ∧ s' = a.result h s) ∧
      Latches s.lastStatus es (a.result h s).exitLatch ∧
      ∀ status, (a.result h s).exitLatch = some status →
        (∀ later : List Activity,
          (later.foldl (fun t b => b.result h t) (a.result h s)).exitLatch = some status) ∧
        ∀ o : Options, o.activity = a → (conduct h o s).1 = status := by
  have ho : s.isOver = false := isOver_eq_false.mpr ⟨hl, hc⟩
  obtain ⟨es, hp⟩ := exists_proceeds h a s
  refine ⟨es, hp, ?_, hp.orderly.latches ho, ?_⟩
  · intro es' s' hp'
    exact hp'.unique hp
  intro status hs
  constructor
  · intro later
    exact exitLatch_foldl later hs
  · rintro o rfl
    have hset : (o.activity.result h s).exitLatch.isSome := by rw [hs]; rfl
    have hover : (o.activity.result h s).isOver = true := by rw [isOver, hset, Bool.true_or]
    rw [conduct_of_isOver hover]
    exact conclude_of_latch hs (hp.orderly.sound ho hset)

/-- A session at home whose startup file runs another file, with `exit` in it. -/
theorem exit_unwinds_startUp :
    let texts := [("/root/.ghsh_profile", "source inner\nhelp\n"), ("/root/inner", "exit 300\nhelp\n"),
      ("/root/.ghshrc", "help\n")]
    let h : Host Machine.Desk :=
      { Machine.Desk.host with
        fileContent := fun _ path =>
          ((texts.lookup path).map String.toUTF8).elim (.error (.system .noEntry)) .ok }
    let s : Session Machine.Desk :=
      { system := .onDisk .empty Machine.Disk.root true (some "false\n".toUTF8)
        settings := .ofPreferences {} none "/root/.ghsh"
        environment := ⟨[⟨"HOME", "/root"⟩]⟩
        directory := "/root" }
    s.exitLatch = none ∧ s.crashed = false ∧
      ∃ es s', Proceeds h (.interaction true) s es s' ∧ Latches s.lastStatus es (some 44) ∧
        (∀ later : List Activity,
          (later.foldl (fun t b => b.result h t) s').exitLatch = some 44) ∧
        (conduct h {} s).1 = 44 := by
  intro texts h s
  have hset : ((Activity.interaction true).result h s).exitLatch = some 44 := by decide +kernel
  obtain ⟨es, hp, -, hl, hs⟩ := exit_unwinds h (.interaction true) s rfl rfl
  obtain ⟨hlater, hstatus⟩ := hs 44 hset
  rw [hset] at hl
  exact ⟨rfl, rfl, es, _, hp, hl, hlater, hstatus {} rfl⟩

/-- A whole number that 64 bits do not hold ends the process with 2, and not with its remainder. -/
theorem exit_beyond_int64 :
    let s : Session Machine.Desk :=
      { system := .onDisk .empty Machine.Disk.root true none
        settings := .ofPreferences {} none "/root/.ghsh"
        environment := {}
        directory := "/root" }
    s.exitLatch = none ∧ Numeral "9223372036854775808".toList 9223372036854775808 ∧
      (conduct Machine.Desk.host { command := some "exit 9223372036854775808" } s).1 = 2 ∧
      ((9223372036854775808 : Int) % 256).toNat ≠ 2 := by
  intro s
  have hv : (9223372036854775808 : Int) = decimal "9223372036854775808".toList := by
    decide +kernel
  have hn : Numeral "9223372036854775808".toList 9223372036854775808 := by
    rw [hv]
    exact .unsigned (by decide) (List.all_eq_true.mp (by decide +kernel))
  exact ⟨rfl, hn, by decide +kernel, by decide +kernel⟩

end CommandLine

end AssistedShell
