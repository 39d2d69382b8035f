import AssistedShell.Proofs.Job.Run

/-! The status that is reported for a job. A reap forgets the processes whose
endings it collects, so that the last process of those still waiting is not
always the last stage of the pipeline. The status is that of the last stage
among those that still ran at every earlier reap; it is the last stage's own for
certain only if that stage was still running when the job was last reaped in
vain. -/

namespace AssistedShell.JobTable

/-- What was known of the processes at each reap. -/
def views (es : List Event) : List View :=
  es.filterMap fun
    | .reaped v _ => some v
    | .added _ => none

/-- Whether a reap reported a job of the number. -/
def Reports (es : List Event) (id : Nat) : Prop :=
  ∃ v fs, Event.reaped v fs ∈ es ∧ ∃ f ∈ fs, f.id = id

/-- The processes that still ran at each of the moments. -/
def remaining (vs : List View) (pids : List Pid) : List Pid :=
  pids.filter fun p => vs.all (·.runs p)

/-- The status of a process as the first reap after its end is told it. -/
def statusTold (vs : List View) (p : Pid) : Option Nat := vs.findSome? fun v => (v p).status?

/-! ### One job through a run -/

theorem views_append (es fs : List Event) : views (es ++ fs) = views es ++ views fs :=
  List.filterMap_append

theorem remaining_append (vs : List View) (v : View) (pids : List Pid) :
    remaining (vs ++ [v]) pids = (remaining vs pids).filter v.runs := by
  simp [remaining, List.filter_filter, List.all_append, Bool.and_comm]

theorem Reports.mono {es fs : List Event} {id : Nat} (hq : Reports es id) :
    Reports (es ++ fs) id := by
  obtain ⟨v, gs, hm, hf⟩ := hq
  exact ⟨v, gs, List.mem_append_left _ hm, hf⟩

section
variable {σ : Type} {h : Host σ} {view : σ → View}

/-- A job that is not reported waits for the processes that still run. -/
theorem Run.pids_eq (ht : h.Tells view) {t t' : JobTable} {s s' : σ} {es : List Event}
    (hr : Run h view t s es t' s') (hs : t.Sound) {j : Job} (hj : j ∈ t.jobs)
    (hq : ¬ Reports es j.id) :
    ∃ k ∈ t'.jobs, k.id = j.id ∧ k.pids = remaining (views es) j.pids := by
  induction hr with
  | start => exact ⟨j, hj, rfl, by simp [remaining, views]⟩
  | pass _ _ ih => exact ih hq
  | add pids cmdline _ ha ih =>
    obtain ⟨k, hk, hid, hp⟩ := ih fun hq' => hq hq'.mono
    refine ⟨k, ?_, hid, ?_⟩
    · rw [add_jobs]
      exact List.mem_append_left _ hk
    · rw [hp, views_append]
      simp [views]
  | @reap es t₁ s₁ hr ih =>
    obtain ⟨k, hk, hid, hp⟩ := ih fun hq' => hq hq'.mono
    have hn : t₁.pids.Nodup := (hr.sound ht hs).nodup
    have hseen : (k.seen (view s₁)).pids = remaining (views es ++ [view s₁]) j.pids := by
      rw [remaining_append, ← hp]
      rfl
    have hne : (k.seen (view s₁)).pids ≠ [] := by
      -- otherwise this very reap reports the job
      intro he
      refine hq ⟨view s₁, (t₁.reap h s₁).1.1, by simp, (k.seen (view s₁)).finish, ?_, hid⟩
      exact (mem_reap_finished ht hn).mpr ⟨k, hk, he, rfl⟩
    refine ⟨k.seen (view s₁), (mem_reap_jobs ht hn).mpr ⟨k, hk, rfl, hne⟩, hid, ?_⟩
    rw [hseen, views_append]
    rfl

/-- The job that a reap reports had ended, and its status is that of the last of the processes
that it waited for. -/
theorem status_of_mem_finished (ht : h.Tells view) {t : JobTable} (hs : t.Sound) {s : σ} {k : Job}
    (hk : k ∈ t.jobs) {f : FinishedJob} (hf : f ∈ (t.reap h s).1.1) (hid : f.id = k.id) :
    (∀ p ∈ k.pids, (view s).runs p = false) ∧
      ∃ p, k.pids.getLast? = some p ∧ (view s p).status? = some f.status := by
  obtain ⟨k', hk', he, rfl⟩ := (mem_reap_finished ht hs.nodup).mp hf
  obtain rfl : k' = k := hs.eq_of_id_eq hk' hk hid
  have hall : ∀ p ∈ k'.pids, (view s).runs p = false := by
    intro p hp
    have := List.filter_eq_nil_iff.mp he p hp
    simpa using this
  refine ⟨hall, k'.pids.getLast (hs.ne_nil k' hk), List.getLast?_eq_some_getLast _, ?_⟩
  have hp := hall _ (List.getLast_mem (hs.ne_nil k' hk))
  obtain ⟨n, hn⟩ := Option.isSome_iff_exists.mp
    ((View.status?_isSome (v := view s) (p := k'.pids.getLast (hs.ne_nil k' hk))).trans (by simp [hp]))
  simp [Job.finish, Job.seen, List.getLast?_eq_some_getLast (hs.ne_nil k' hk), hn]

/-! ### The status -/

theorem statusTold_append (vs : List View) (v : View) {p : Pid} (hp : ∀ w ∈ vs, w.runs p = true) :
    statusTold (vs ++ [v]) p = (v p).status? := by
  have hnone : vs.findSome? (fun w => (w p).status?) = none := by
    rw [List.findSome?_eq_none_iff]
    intro w hw
    rw [View.runs_iff.mp (hp w hw)]
    rfl
  rw [statusTold, List.findSome?_append, hnone]
  simp

theorem runs_of_mem_remaining {vs : List View} {pids : List Pid} {p : Pid}
    (hp : p ∈ remaining vs pids) : ∀ v ∈ vs, v.runs p = true := by
  have := (List.mem_filter.mp hp).2
  simpa using this

/-- A last stage that still runs is the last of the stages that do. -/
theorem getLast?_remaining {vs : List View} {pids : List Pid} {l : Pid}
    (hl : pids.getLast? = some l) (hm : l ∈ remaining vs pids) :
    (remaining vs pids).getLast? = some l := by
  obtain ⟨init, rfl⟩ := List.getLast?_eq_some_iff.mp hl
  have hr : vs.all (·.runs l) = true := by simpa using runs_of_mem_remaining hm
  simp [remaining, List.filter_append, hr]

/-- The status that a job is reported with, for every run in which it is added, other jobs come
and go, processes end in any order and the table is reaped any number of times before. With
`newest` the last stage among those that still ran at each earlier reap, the status is that of
`newest`. This is the last stage's status exactly if the last stage still ran at each earlier
reap, or `newest` happens to have ended alike. -/
theorem reported_status (ht : h.Tells view) {before during : List Event} {t₀ t : JobTable}
    {s s₀ s₁ : σ} (hb : Run h view {} s before t₀ s₀) {pids : List Pid} (ha : t₀.Admits pids)
    (cmdline : String) (hd : Run h view (t₀.add pids cmdline) s₀ during t s₁)
    (hq : ¬ Reports during t₀.nextId) {f : FinishedJob} (hf : f ∈ (t.reap h s₁).1.1)
    (hid : f.id = t₀.nextId) :
    ∃ newest, (remaining (views during) pids).getLast? = some newest ∧
      statusTold (views during ++ [view s₁]) newest = some f.status ∧
      (statusTold (views during ++ [view s₁]) (pids.getLast ha.ne_nil) = some f.status ↔
        pids.getLast ha.ne_nil ∈ remaining (views during) pids ∨
          statusTold (views during ++ [view s₁]) (pids.getLast ha.ne_nil) =
            statusTold (views during ++ [view s₁]) newest) := by
  have hs := (hb.sound ht sound_empty).add ha cmdline
  have hj : t₀.entry pids cmdline ∈ (t₀.add pids cmdline).jobs := by
    rw [add_jobs]
    exact List.mem_append_right _ (List.mem_singleton_self _)
  obtain ⟨k, hk, hkid, hkp⟩ := hd.pids_eq ht hs hj hq
  obtain ⟨-, newest, hlast, hst⟩ :=
    status_of_mem_finished ht (hd.sound ht hs) hk hf (hid.trans hkid.symm)
  replace hlast : (remaining (views during) pids).getLast? = some newest := hkp ▸ hlast
  have hmem : newest ∈ remaining (views during) pids := List.mem_of_getLast? hlast
  have htold : statusTold (views during ++ [view s₁]) newest = some f.status := by
    rw [statusTold_append _ _ (runs_of_mem_remaining hmem)]
    exact hst
  refine ⟨newest, hlast, htold, ?_⟩
  constructor
  · intro h1
    exact .inr (h1.trans htold.symm)
  · rintro (h1 | h1)
    · have : newest = pids.getLast ha.ne_nil :=
        Option.some.inj (hlast.symm.trans
          (getLast?_remaining (List.getLast?_eq_some_getLast ha.ne_nil) h1))
      rw [← this]
      exact htold
    · exact h1.trans htold

end

/-! ### A last stage that ends first -/

open Machine (Desk)

/-- A machine with two processes: the second has ended with 7, the first is killed at time 1. -/
def twoStages : Desk where
  machine := { processes :=
    (({} : Std.TreeMap Pid Machine.Process).insert 1 ⟨.killed 9, 1⟩).insert 2 ⟨.exited 7, 0⟩ }
  console := default

/-- The machine at time 1, after a table was reaped on it at time 0. -/
def oneStageLeft (t : JobTable) : Desk :=
  let d := (t.reap Desk.host twoStages).2
  { d with machine := { d.machine with clock := 1 } }

/-- The last stage ends with 7 and a reap collects it; then the first stage is killed. The job is
reported with the status of the first stage, 137. -/
theorem status_of_first_stage :
    let t := ({} : JobTable).add [1, 2] "a | b &"
    let t' := (t.reap Desk.host twoStages).1.2
    (t.reap Desk.host twoStages).1.1 = [] ∧
      statusTold [twoStages.view, (oneStageLeft t).view] 2 = some 7 ∧
      (t'.reap Desk.host (oneStageLeft t)).1.1 = [⟨1, "a | b &", 137⟩] := by
  decide

/-- The same run as an instance of the general statement. -/
theorem reported_status_twoStages :
    let t := ({} : JobTable).add [1, 2] "a | b &"
    let t' := (t.reap Desk.host twoStages).1.2
    let during := [Event.reaped twoStages.view []]
    let told := views during ++ [(oneStageLeft t).view]
    Run Desk.host Desk.view t twoStages during t' (oneStageLeft t) ∧ ¬ Reports during 1 ∧
      (⟨1, "a | b &", 137⟩ : FinishedJob) ∈ (t'.reap Desk.host (oneStageLeft t)).1.1 ∧
      ∃ newest, (remaining (views during) [1, 2]).getLast? = some newest ∧
        statusTold told newest = some 137 ∧
        (statusTold told 2 = some 137 ↔
          2 ∈ remaining (views during) [1, 2] ∨ statusTold told 2 = statusTold told newest) := by
  intro t t' during told
  have ha : ({} : JobTable).Admits [1, 2] := ⟨by decide, by decide, by decide⟩
  have he : (t.reap Desk.host twoStages).1.1 = [] := by decide
  have hd : Run Desk.host Desk.view t twoStages during t' (oneStageLeft t) := by
    have h₀ : Run Desk.host Desk.view t twoStages [] t twoStages := .start
    have hr := h₀.reap
    rw [he] at hr
    exact hr.pass (by decide)
  have hq : ¬ Reports during 1 := by
    rintro ⟨v, fs, hm, f, hf, -⟩
    obtain ⟨-, rfl⟩ := Event.reaped.inj (List.mem_singleton.mp hm)
    exact List.not_mem_nil hf
  have hf : (⟨1, "a | b &", 137⟩ : FinishedJob) ∈ (t'.reap Desk.host (oneStageLeft t)).1.1 := by
    decide
  exact ⟨hd, hq, hf,
    reported_status Desk.host_tells (Run.start (s := twoStages)) ha "a | b &" hd hq hf rfl⟩

end AssistedShell.JobTable
