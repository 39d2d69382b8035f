import AssistedShell.Job
import AssistedShell.Machine.Kernel
import Mathlib.Data.List.Nodup
import Mathlib.Logic.Function.Basic

/-! Polling. What a system knows of its processes at a moment is a view, one
answer for each process. An ending is told once: the poll that tells it is the
one that collects it. Polling a job, or a whole table, is then a function of the
view at that moment. -/

namespace AssistedShell

/-- What is known of each process at a moment. -/
abbrev View := Pid → Poll

namespace View

/-- Whether a process still runs. -/
def runs (v : View) (p : Pid) : Bool := v p == .running

/-- The view after the processes of a list were asked after: those that had ended are gone. -/
def collect (v : View) (pids : List Pid) : View :=
  fun p => if p ∈ pids ∧ v.runs p = false then .unknown else v p

theorem collect_of_notMem {v : View} {pids : List Pid} {p : Pid} (hp : p ∉ pids) :
    v.collect pids p = v p := by simp [collect, hp]

theorem collect_of_runs {v : View} {pids : List Pid} {p : Pid} (hp : v.runs p = true) :
    v.collect pids p = v p := by simp [collect, hp]

@[simp] theorem collect_nil (v : View) : v.collect [] = v := by
  funext p
  simp [collect]

theorem runs_iff {v : View} {p : Pid} : v.runs p = true ↔ v p = .running := by simp [runs]

theorem runs_collect (v : View) (pids : List Pid) (p : Pid) :
    (v.collect pids).runs p = v.runs p := by
  cases hr : v.runs p with
  | true => rw [runs, collect_of_runs hr]; exact hr
  | false =>
    by_cases hp : p ∈ pids
    · have hc : v.collect pids p = .unknown := by simp [collect, hp, hr]
      simp [runs, hc]
    · rw [runs, collect_of_notMem hp]; exact hr

theorem collect_collect (v : View) (ps qs : List Pid) :
    (v.collect ps).collect qs = v.collect (ps ++ qs) := by
  funext p
  cases hr : v.runs p with
  | true => simp [collect, runs_collect, hr]
  | false => by_cases hp : p ∈ ps <;> by_cases hq : p ∈ qs <;> simp [collect, runs_collect, hr, hp, hq]

/-- A process that has ended, or that nobody knows, has a status; a running one has none. -/
theorem status?_isSome {v : View} {p : Pid} : (v p).status?.isSome = !v.runs p := by
  cases h : v p <;> simp [runs, h, Poll.status?]

end View

/-- A host whose answers to polls are those of the view of its state, and which forgets an
ending once it has told it. -/
structure Host.Tells {σ : Type} (h : Host σ) (view : σ → View) : Prop where
  answer : ∀ pid s, (h.poll pid s).1 = view s pid
  after : ∀ pid s, view (h.poll pid s).2 = (view s).collect [pid]

section
variable {σ : Type} {h : Host σ} {view : σ → View}

namespace Job

/-! ### One job -/

theorem pollAll_pids (ht : h.Tells view) (last : Option Pid) (pids : List Pid) (n : Nat) (s : σ) :
    (pollAll h last pids n s).1.1 = pids.filter (view s).runs := by
  induction pids generalizing n s with
  | nil => rfl
  | cons p ps ih =>
    have hf : ps.filter (view (h.poll p s).2).runs = ps.filter (view s).runs := by
      simp only [ht.after, funext (View.runs_collect (view s) [p])]
    simp only [pollAll]
    cases hp : (h.poll p s).1.status? with
    | none =>
      have hr : (view s).runs p = true := by
        have := View.status?_isSome (v := view s) (p := p)
        rw [← ht.answer, hp] at this
        simpa using this.symm
      simp [ih, hf, hr]
    | some n =>
      have hr : (view s).runs p = false := by
        have := View.status?_isSome (v := view s) (p := p)
        rw [← ht.answer, hp] at this
        simpa using this.symm
      simp [ih, hf, hr]

theorem view_pollAll (ht : h.Tells view) (last : Option Pid) (pids : List Pid) (n : Nat) (s : σ) :
    view (pollAll h last pids n s).2 = (view s).collect pids := by
  induction pids generalizing n s with
  | nil => simp [pollAll]
  | cons p ps ih =>
    have hc : (view (h.poll p s).2).collect ps = (view s).collect (p :: ps) := by
      rw [ht.after, View.collect_collect]; rfl
    simp only [pollAll]
    cases (h.poll p s).1.status? with
    | none => simpa only [ih] using hc
    | some n => simpa only [ih] using hc

/-- The status after a poll is that of the process `l` if it is asked after and has ended. -/
theorem pollAll_status (ht : h.Tells view) (l : Pid) (pids : List Pid) (hn : pids.Nodup) (n : Nat)
    (s : σ) :
    (pollAll h (some l) pids n s).1.2 = if l ∈ pids then (view s l).status?.getD n else n := by
  induction pids generalizing n s with
  | nil => simp [pollAll]
  | cons p ps ih =>
    obtain ⟨hp, hn⟩ := List.nodup_cons.mp hn
    -- what is known of the other processes does not change with the poll of this one
    have hv : l ∈ ps → view (h.poll p s).2 l = view s l := by
      intro hl
      rw [ht.after]
      exact View.collect_of_notMem (by rw [List.mem_singleton]; rintro rfl; exact hp hl)
    have hps : ∀ m, (pollAll h (some l) ps m (h.poll p s).2).1.2 =
        if l ∈ ps then (view s l).status?.getD m else m := by
      intro m
      rw [ih hn]
      split_ifs with hl
      · rw [hv hl]
      · rfl
    by_cases hl : l = p
    · subst hl
      cases hs : (view s l).status? <;> simp [pollAll, ht.answer, hs, hps, hp]
    · cases hs : (view s p).status? <;> simp [pollAll, ht.answer, hs, hps, hl]

/-- What a poll at the moment of a view makes of a job. -/
def seen (v : View) (j : Job) : Job :=
  { j with
    pids := j.pids.filter v.runs
    lastStatus := (j.pids.getLast?.bind fun p => (v p).status?).getD j.lastStatus }

theorem poll_eq (ht : h.Tells view) {j : Job} (hn : j.pids.Nodup) (s : σ) :
    (j.poll h s).1 = j.seen (view s) := by
  simp only [poll, seen, Job.mk.injEq, true_and]
  refine ⟨pollAll_pids ht .., ?_⟩
  cases hg : j.pids.getLast? with
  | none => simp [List.getLast?_eq_none_iff.mp hg, pollAll]
  | some l => simp [pollAll_status ht l _ hn, List.mem_of_getLast? hg]

theorem view_poll (ht : h.Tells view) (j : Job) (s : σ) :
    view (j.poll h s).2 = (view s).collect j.pids := view_pollAll ht ..

/-- Only what a view says of a job's own processes matters to the job. -/
theorem seen_congr {v w : View} {j : Job} (hv : ∀ p ∈ j.pids, v p = w p) :
    j.seen v = j.seen w := by
  have hf : j.pids.filter v.runs = j.pids.filter w.runs :=
    List.filter_congr fun p hp => by rw [View.runs, View.runs, hv p hp]
  have hl : (j.pids.getLast?.bind fun p => (v p).status?) =
      j.pids.getLast?.bind fun p => (w p).status? := by
    cases hg : j.pids.getLast? with
    | none => rfl
    | some p => simp [hv p (List.mem_of_getLast? hg)]
  simp only [seen, hf, hl]

end Job

namespace JobTable

/-! ### A table -/

/-- The processes of all jobs that are not collected yet. -/
def pids (t : JobTable) : List Pid := t.jobs.flatMap Job.pids

theorem pids_add (t : JobTable) (ps : List Pid) (cmdline : String) :
    (t.add ps cmdline).pids = t.pids ++ ps := by simp [pids, add]

theorem pollJobs_eq (ht : h.Tells view) (js : List Job) (hn : (js.flatMap Job.pids).Nodup)
    (s : σ) :
    (pollJobs h js s).1 = js.map (Job.seen (view s)) ∧
      view (pollJobs h js s).2 = (view s).collect (js.flatMap Job.pids) := by
  induction js generalizing s with
  | nil => simp [pollJobs]
  | cons j js ih =>
    rw [List.flatMap_cons] at hn
    obtain ⟨hj, hjs, hd⟩ := List.nodup_append'.mp hn
    obtain ⟨h1, h2⟩ := ih hjs (j.poll h s).2
    simp only [pollJobs, List.map_cons, List.flatMap_cons, List.cons.injEq]
    refine ⟨⟨Job.poll_eq ht hj s, ?_⟩, ?_⟩
    · rw [h1]
      refine List.map_congr_left fun k hk => Job.seen_congr fun p hp => ?_
      rw [Job.view_poll ht]
      exact View.collect_of_notMem fun hm => hd hm (List.mem_flatMap.mpr ⟨k, hk, hp⟩)
    · rw [h2, Job.view_poll ht, View.collect_collect]

/-- The jobs of a table as a poll at the moment of a view leaves them. -/
def seen (v : View) (t : JobTable) : List Job := t.jobs.map (Job.seen v)

theorem reap_finished (ht : h.Tells view) {t : JobTable} (hn : t.pids.Nodup) (s : σ) :
    (t.reap h s).1.1 = ((t.seen (view s)).filter Job.isFinished).map Job.finish := by
  simp only [reap, seen, (pollJobs_eq ht t.jobs hn s).1]

theorem reap_jobs (ht : h.Tells view) {t : JobTable} (hn : t.pids.Nodup) (s : σ) :
    (t.reap h s).1.2.jobs = (t.seen (view s)).filter (!·.isFinished) := by
  simp only [reap, seen, (pollJobs_eq ht t.jobs hn s).1]

theorem view_reap (ht : h.Tells view) {t : JobTable} (hn : t.pids.Nodup) (s : σ) :
    view (t.reap h s).2 = (view s).collect t.pids := (pollJobs_eq ht t.jobs hn s).2

end JobTable

end

namespace Machine.Desk

/-- What the machine knows of its processes. -/
def view (d : Desk) : View := fun pid =>
  match d.machine.processes[pid]? with
  | none => .unknown
  | some p =>
    if p.endsAt ≤ d.machine.clock then
      if d.forgets then .unknown else .ended p.ending
    else .running

/-- The machine tells each ending once. -/
theorem host_tells : host.Tells view where
  answer pid d := by
    change (d.poll pid).1 = view d pid
    rw [view, poll]
    cases d.machine.processes[pid]? with
    | none => rfl
    | some q => by_cases he : q.endsAt ≤ d.machine.clock <;> simp [he]
  after pid d := by
    change view (d.poll pid).2 = (view d).collect [pid]
    funext p
    by_cases hp : p = pid
    · subst hp
      cases hq : d.machine.processes[p]? with
      | none => simp [view, View.collect, View.runs, poll, hq]
      | some q =>
        by_cases he : q.endsAt ≤ d.machine.clock <;> by_cases hf : d.forgets <;>
          simp [view, View.collect, View.runs, poll, hq, he, hf]
    · rw [View.collect_of_notMem (by simpa using hp)]
      cases hq : d.machine.processes[pid]? with
      | none => simp [poll, hq]
      | some q =>
        by_cases he : q.endsAt ≤ d.machine.clock
        · simp [view, poll, hq, he, forgets, Std.TreeMap.getElem?_erase, Ne.symm hp]
        · simp [poll, hq, he]

end Machine.Desk

end AssistedShell
