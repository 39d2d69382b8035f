import AssistedShell.Proofs.Job.Polling
import Mathlib.Data.List.Pairwise

/-! Runs of a job table: jobs are added and reaped in any order, and between any
two of these time passes, in which processes end. In every table that a run
reaches the numbers of the jobs increase and no process belongs to two jobs. -/

namespace AssistedShell.JobTable

/-- What is done to a table. -/
inductive Event where
  | added (job : Job)
  | reaped (view : View) (finished : List FinishedJob)

/-- Whether processes can become a job: there are some, and none is there twice or waits in the
table already. -/
structure Admits (t : JobTable) (pids : List Pid) : Prop where
  ne_nil : pids ≠ []
  nodup : pids.Nodup
  fresh : ∀ p ∈ pids, p ∉ t.pids

/-- The job as which the table enters the processes of a pipeline. -/
def entry (t : JobTable) (pids : List Pid) (cmdline : String) : Job :=
  ⟨t.nextId, cmdline.trimBlank, pids, 0⟩

theorem add_jobs (t : JobTable) (pids : List Pid) (cmdline : String) :
    (t.add pids cmdline).jobs = t.jobs ++ [t.entry pids cmdline] := rfl

/-- A run from one table and state to another, and what was done to the table on the way. Time
may change everything but the processes in the table, of which those that run may end. -/
inductive Run {σ : Type} (h : Host σ) (view : σ → View) (t : JobTable) (s : σ) :
    List Event → JobTable → σ → Prop where
  | start : Run h view t s [] t s
  | pass {es t' s' s''} : Run h view t s es t' s' →
      (∀ p ∈ t'.pids, (view s').runs p = false → view s'' p = view s' p) →
      Run h view t s es t' s''
  | add {es t' s'} (pids cmdline) : Run h view t s es t' s' → t'.Admits pids →
      Run h view t s (es ++ [.added (t'.entry pids cmdline)]) (t'.add pids cmdline) s'
  | reap {es t' s'} : Run h view t s es t' s' →
      Run h view t s (es ++ [.reaped (view s') (t'.reap h s').1.1]) (t'.reap h s').1.2
        (t'.reap h s').2

/-- What holds of every table in use. -/
structure Sound (t : JobTable) : Prop where
  nodup : t.pids.Nodup
  increasing : t.jobs.Pairwise fun j k => j.id < k.id
  ne_nil : ∀ j ∈ t.jobs, j.pids ≠ []

theorem sound_empty : ({} : JobTable).Sound := ⟨by simp [pids], by simp, by simp⟩

/-! ### Adding -/

theorem lt_nextId {t : JobTable} {j : Job} (hj : j ∈ t.jobs) : j.id < t.nextId := by
  have hm : j.id ∈ t.jobs.map Job.id := List.mem_map_of_mem hj
  rw [nextId, List.foldl_max_eq_max (List.ne_nil_of_mem hm)]
  have := List.le_max_of_mem hm
  omega

theorem Sound.add {t : JobTable} (hs : t.Sound) {ps : List Pid} (ha : t.Admits ps)
    (cmdline : String) : (t.add ps cmdline).Sound where
  nodup := by
    rw [pids_add, List.nodup_append']
    exact ⟨hs.nodup, ha.nodup, fun p hp hq => ha.fresh p hq hp⟩
  increasing := by
    rw [add_jobs, List.pairwise_append]
    refine ⟨hs.increasing, List.pairwise_singleton .., ?_⟩
    intro j hj k hk
    rw [List.mem_singleton.mp hk]
    exact lt_nextId hj
  ne_nil := by
    intro j hj
    rw [add_jobs, List.mem_append, List.mem_singleton] at hj
    rcases hj with hj | rfl
    · exact hs.ne_nil j hj
    · exact ha.ne_nil

/-! ### Reaping -/

section
variable {σ : Type} {h : Host σ} {view : σ → View}

theorem mem_reap_jobs (ht : h.Tells view) {t : JobTable} (hn : t.pids.Nodup) {s : σ} {k : Job} :
    k ∈ (t.reap h s).1.2.jobs ↔ ∃ j ∈ t.jobs, j.seen (view s) = k ∧ k.pids ≠ [] := by
  rw [reap_jobs ht hn, List.mem_filter, seen, List.mem_map]
  constructor
  · rintro ⟨⟨j, hj, rfl⟩, hk⟩
    exact ⟨j, hj, rfl, by simpa [Job.isFinished] using hk⟩
  · rintro ⟨j, hj, rfl, hk⟩
    exact ⟨⟨j, hj, rfl⟩, by simpa [Job.isFinished] using hk⟩

theorem mem_reap_finished (ht : h.Tells view) {t : JobTable} (hn : t.pids.Nodup) {s : σ}
    {f : FinishedJob} :
    f ∈ (t.reap h s).1.1 ↔
      ∃ j ∈ t.jobs, (j.seen (view s)).pids = [] ∧ (j.seen (view s)).finish = f := by
  rw [reap_finished ht hn, List.mem_map, seen]
  constructor
  · rintro ⟨k, hk, rfl⟩
    obtain ⟨hk, hf⟩ := List.mem_filter.mp hk
    obtain ⟨j, hj, rfl⟩ := List.mem_map.mp hk
    exact ⟨j, hj, by simpa [Job.isFinished] using hf, rfl⟩
  · rintro ⟨j, hj, hk, rfl⟩
    exact ⟨j.seen (view s), List.mem_filter.mpr ⟨List.mem_map_of_mem hj, by simp [Job.isFinished, hk]⟩,
      rfl⟩

theorem pids_reap_sublist (ht : h.Tells view) {t : JobTable} (hn : t.pids.Nodup) (s : σ) :
    (t.reap h s).1.2.pids.Sublist t.pids := by
  rw [pids, reap_jobs ht hn, seen, pids]
  generalize t.jobs = js
  induction js with
  | nil => simp
  | cons j js ih =>
    have hj : (j.seen (view s)).pids.Sublist j.pids := List.filter_sublist
    by_cases hf : (j.seen (view s)).isFinished
    · simpa [hf] using ih.trans (List.sublist_append_right ..)
    · simpa [hf] using hj.append ih

theorem Sound.reap (ht : h.Tells view) {t : JobTable} (hs : t.Sound) (s : σ) :
    (t.reap h s).1.2.Sound where
  nodup := hs.nodup.sublist (pids_reap_sublist ht hs.nodup s)
  increasing := by
    rw [reap_jobs ht hs.nodup, seen]
    refine List.Pairwise.filter _ ?_
    rw [List.pairwise_map]
    exact hs.increasing
  ne_nil := by
    intro k hk
    obtain ⟨j, -, -, hk⟩ := (mem_reap_jobs ht hs.nodup).mp hk
    exact hk

/-- Every table that a run reaches is sound. -/
theorem Run.sound (ht : h.Tells view) {t t' : JobTable} {s s' : σ} {es : List Event}
    (hr : Run h view t s es t' s') (hs : t.Sound) : t'.Sound := by
  induction hr with
  | start => exact hs
  | pass _ _ ih => exact ih
  | add pids cmdline _ ha ih => exact ih.add ha cmdline
  | reap _ ih => exact ih.reap ht _

end

/-- A number stands for one job of a sound table. -/
theorem Sound.eq_of_id_eq {t : JobTable} (hs : t.Sound) {j k : Job} (hj : j ∈ t.jobs)
    (hk : k ∈ t.jobs) (hid : j.id = k.id) : j = k := by
  have hn : (t.jobs.map Job.id).Nodup := by
    rw [List.Nodup, List.pairwise_map]
    exact hs.increasing.imp fun hlt => Nat.ne_of_lt hlt
  exact List.inj_on_of_nodup_map hn hj hk hid

end AssistedShell.JobTable
