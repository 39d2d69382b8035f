import AssistedShell.Proofs.Host.Recording
import AssistedShell.Proofs.Job.Status

/-! The books of a job table: what was added, what was reported and what is
still there. Of the stages of a job that was added, those are left that still
ran at each reap since then, and the job is pending until none is left. A table
holds exactly the pending jobs, each with the stages it has left, and a reap
asks after exactly these. So a number is given out and reported in turns, and no
process is asked after again once its ending is known. -/

namespace AssistedShell

/-- The number and the command line, by which a job is known to the user. -/
def Job.label (j : Job) : Nat × String := (j.id, j.cmdline)

def FinishedJob.label (f : FinishedJob) : Nat × String := (f.id, f.cmdline)

/-- What a job still waits for, under its label. -/
def Job.outline (j : Job) : (Nat × String) × List Pid := (j.label, j.pids)

namespace JobTable

/-! ### Pending jobs -/

/-- A job as it was added, with what was known of the processes at each reap since. -/
structure Pending where
  job : Job
  since : List View

namespace Pending

/-- The stages that still ran at each reap since the job was added. -/
def left (x : Pending) : List Pid := remaining x.since x.job.pids

def outline (x : Pending) : (Nat × String) × List Pid := (x.job.label, x.left)

/-- The same job one reap later. -/
def later (v : View) (x : Pending) : Pending := { x with since := x.since ++ [v] }

/-- Whether each of the stages was found to run no more. -/
def hasEnded (x : Pending) : Bool := x.job.pids.all fun p => x.since.any fun v => !v.runs p

theorem hasEnded_eq (x : Pending) : x.hasEnded = x.outline.2.isEmpty := by
  rw [Bool.eq_iff_iff]
  simp [hasEnded, outline, left, remaining]

theorem outline_later (v : View) (x : Pending) :
    (x.later v).outline = (x.outline.1, x.outline.2.filter v.runs) := by
  rw [outline, left, later, remaining_append]
  rfl

end Pending

/-- What an event makes of the pending jobs. A reap is the end of those that have ended by then. -/
def pendingAfter (xs : List Pending) : Event → List Pending
  | .added j => xs ++ [⟨j, []⟩]
  | .reaped v _ => (xs.map (Pending.later v)).filter (!·.hasEnded)

/-- The jobs that are pending after some events, in the order in which they were added. -/
def pending (es : List Event) : List Pending := es.foldl pendingAfter []

theorem pending_concat (es : List Event) (e : Event) :
    pending (es ++ [e]) = pendingAfter (pending es) e := List.foldl_concat ..

/-- Equal outlines stay equal over a reap, of the jobs that end at it and of the others. -/
theorem map_outline_filter {js : List Job} {xs : List Pending}
    (ho : js.map Job.outline = xs.map Pending.outline) (v : View) (keep : Bool → Bool) :
    ((js.map (Job.seen v)).filter fun j => keep j.isFinished).map Job.outline =
      ((xs.map (Pending.later v)).filter fun x => keep x.hasEnded).map Pending.outline := by
  let sight : (Nat × String) × List Pid → (Nat × String) × List Pid :=
    fun o => (o.1, o.2.filter v.runs)
  have hjs : (js.map (Job.seen v)).map Job.outline = (js.map Job.outline).map sight := by
    rw [List.map_map, List.map_map]
    rfl
  have hxs : (xs.map (Pending.later v)).map Pending.outline = (xs.map Pending.outline).map sight := by
    rw [List.map_map, List.map_map]
    exact List.map_congr_left fun x _ => Pending.outline_later v x
  have hj : (fun j : Job => keep j.isFinished) = (fun o => keep o.2.isEmpty) ∘ Job.outline := rfl
  have hx : (fun x : Pending => keep x.hasEnded) = (fun o => keep o.2.isEmpty) ∘ Pending.outline := by
    funext x
    rw [Pending.hasEnded_eq]
    rfl
  rw [hj, hx, ← List.filter_map, ← List.filter_map, hjs, hxs, ho]

section
variable {σ : Type} {h : Host σ} {view : σ → View}

/-- A table holds the pending jobs, each with the stages that it has left. -/
theorem Run.outlines_eq (ht : h.Tells view) {t : JobTable} {s s' : σ} {es : List Event}
    (hr : Run h view {} s es t s') : t.jobs.map Job.outline = (pending es).map Pending.outline := by
  induction hr with
  | start => rfl
  | pass _ _ ih => exact ih
  | @add es t s pids cmdline hr ha ih =>
    have hnew : (⟨t.entry pids cmdline, []⟩ : Pending).outline = (t.entry pids cmdline).outline := by
      simp [Pending.outline, Pending.left, remaining, Job.outline]
    rw [add_jobs, pending_concat, pendingAfter, List.map_append, List.map_append, ih,
      List.map_singleton, List.map_singleton, hnew]
  | @reap es t s hr ih =>
    rw [reap_jobs ht (hr.sound ht sound_empty).nodup, pending_concat, pendingAfter]
    exact map_outline_filter ih (view s) (!·)

theorem map_label_eq {js : List Job} {xs : List Pending}
    (ho : js.map Job.outline = xs.map Pending.outline) :
    js.map Job.label = xs.map fun x => x.job.label := by
  have h1 := congrArg (List.map Prod.fst) ho
  rw [List.map_map, List.map_map] at h1
  exact h1

/-! ### Numbers -/

/-- What was done under a number: a command line was entered or reported. -/
inductive Line where
  | entered (cmdline : String)
  | reported (cmdline : String)
  deriving DecidableEq, Repr

/-- What an event did under a number. -/
def Event.lines (n : Nat) : Event → List Line
  | .added j => if j.id = n then [.entered j.cmdline] else []
  | .reaped _ fs => (fs.filter (·.id = n)).map (.reported ·.cmdline)

/-- Everything that was done under a number, in order. -/
def account (n : Nat) (es : List Event) : List Line := es.flatMap (Event.lines n)

theorem account_concat (n : Nat) (es : List Event) (e : Event) :
    account n (es ++ [e]) = account n es ++ e.lines n := by
  rw [account, account, List.flatMap_append, List.flatMap_singleton]

/-- The lines of a command line that was entered and reported. -/
def settled (cmdline : String) : List Line := [.entered cmdline, .reported cmdline]

/-- The lines that jobs of a table have open under a number. -/
def openLines (n : Nat) (js : List Job) : List Line :=
  (js.filter (·.id = n)).map (.entered ·.cmdline)

theorem nextId_pos (t : JobTable) : 1 ≤ t.nextId := Nat.le_add_left ..

theorem openLines_add (n : Nat) (t : JobTable) (pids : List Pid) (cmdline : String) :
    openLines n (t.add pids cmdline).jobs =
      openLines n t.jobs ++ (Event.added (t.entry pids cmdline)).lines n := by
  rw [add_jobs, openLines, List.filter_append, List.map_append]
  by_cases hn : (t.entry pids cmdline).id = n <;> simp [openLines, Event.lines, hn]

/-- Under a number at most one job is found where numbers increase. -/
theorem filter_id {js : List Job} (hs : js.Pairwise fun j k => j.id < k.id) (n : Nat) :
    js.filter (·.id = n) = [] ∨ ∃ j, js.filter (·.id = n) = [j] := by
  have hp := hs.filter (·.id = n)
  have hn : ∀ j ∈ js.filter (·.id = n), j.id = n := fun j hj =>
    of_decide_eq_true (List.mem_filter.mp hj).2
  generalize js.filter (·.id = n) = found at hp hn
  match found, hp, hn with
  | [], _, _ => exact .inl rfl
  | [j], _, _ => exact .inr ⟨j, rfl⟩
  | j :: k :: _, hp, hn =>
    have hlt : j.id < k.id := (List.pairwise_cons.mp hp).1 k List.mem_cons_self
    have hj := hn j List.mem_cons_self
    have hk := hn k (List.mem_cons_of_mem _ List.mem_cons_self)
    omega

/-- What has ended is settled when it is reported, and everything else stays open. -/
theorem openLines_filter {js : List Job} (hs : js.Pairwise fun j k => j.id < k.id) (n : Nat)
    (v : View) :
    ∃ done : List String,
      openLines n js ++
          (Event.reaped v ((js.filter Job.isFinished).map Job.finish)).lines n =
        done.flatMap settled ++ openLines n (js.filter (!·.isFinished)) := by
  have hl : (Event.reaped v ((js.filter Job.isFinished).map Job.finish)).lines n =
      ((js.filter (·.id = n)).filter Job.isFinished).map (.reported ·.cmdline) := by
    rw [Event.lines, List.filter_map, List.map_map, List.filter_comm]
    rfl
  have ho : openLines n (js.filter (!·.isFinished)) =
      ((js.filter (·.id = n)).filter (!·.isFinished)).map (.entered ·.cmdline) := by
    rw [openLines, List.filter_comm]
  rw [hl, ho, openLines]
  rcases filter_id hs n with hf | ⟨j, hf⟩
  · rw [hf]
    exact ⟨[], rfl⟩
  · rw [hf]
    cases he : j.isFinished with
    | true => exact ⟨[j.cmdline], by simp [he, settled]⟩
    | false => exact ⟨[], by simp [he]⟩

theorem openLines_seen (n : Nat) (v : View) (t : JobTable) :
    openLines n (t.seen v) = openLines n t.jobs := by
  rw [openLines, seen, List.filter_map, List.map_map]
  rfl

theorem Sound.seen {t : JobTable} (hs : t.Sound) (v : View) :
    (t.seen v).Pairwise fun j k => j.id < k.id := by
  rw [JobTable.seen, List.pairwise_map]
  exact hs.increasing

/-- Under each number command lines are entered and reported in turns, and one that is not
reported yet is that of the job in the table. -/
theorem Run.account_eq (ht : h.Tells view) {t : JobTable} {s s' : σ} {es : List Event}
    (hr : Run h view {} s es t s') (n : Nat) :
    ∃ cmdlines : List String, account n es = cmdlines.flatMap settled ++ openLines n t.jobs := by
  induction hr with
  | start => exact ⟨[], rfl⟩
  | pass _ _ ih => exact ih
  | add pids cmdline _ ha ih =>
    obtain ⟨cs, hc⟩ := ih
    refine ⟨cs, ?_⟩
    rw [account_concat, hc, openLines_add, List.append_assoc]
  | @reap es t s hr ih =>
    obtain ⟨cs, hc⟩ := ih
    have hs := hr.sound ht sound_empty
    obtain ⟨done, hd⟩ := openLines_filter (hs.seen (view s)) n (view s)
    refine ⟨cs ++ done, ?_⟩
    rw [account_concat, hc, List.append_assoc, reap_finished ht hs.nodup, reap_jobs ht hs.nodup,
      ← openLines_seen n (view s) t, hd, List.flatMap_append, List.append_assoc]

theorem Run.id_pos (ht : h.Tells view) {t : JobTable} {s s' : σ} {es : List Event}
    (hr : Run h view {} s es t s') : ∀ j ∈ t.jobs, 1 ≤ j.id := by
  induction hr with
  | start => simp
  | pass _ _ ih => exact ih
  | @add es t s pids cmdline _ ha ih =>
    intro j hj
    rw [add_jobs, List.mem_append, List.mem_singleton] at hj
    rcases hj with hj | rfl
    · exact ih j hj
    · exact t.nextId_pos
  | reap hr ih =>
    intro k hk
    obtain ⟨j, hj, rfl, -⟩ := (mem_reap_jobs ht (hr.sound ht sound_empty).nodup).mp hk
    exact ih j hj

/-! ### What a reap asks -/

theorem pollAll_recorded (ht : h.Tells view) (last : Option Pid) (pids : List Pid)
    (hn : pids.Nodup) (n : Nat) (s : σ) (log : List Call) :
    (Job.pollAll h.recorded last pids n ⟨s, log⟩).2 =
      ⟨(Job.pollAll h last pids n s).2, log ++ pids.map fun p => .poll p (view s p)⟩ := by
  induction pids generalizing n s log with
  | nil => simp [Job.pollAll]
  | cons p ps ih =>
    obtain ⟨hp, hn⟩ := List.nodup_cons.mp hn
    have hr : h.recorded.poll p ⟨s, log⟩ =
        ((h.poll p s).1, ⟨(h.poll p s).2, log ++ [.poll p (view s p)]⟩) := by
      rw [← ht.answer]
      rfl
    have hps : (ps.map fun q => Call.poll q (view (h.poll p s).2 q)) =
        ps.map fun q => Call.poll q (view s q) := by
      refine List.map_congr_left fun q hq => ?_
      rw [ht.after, View.collect_of_notMem (by rw [List.mem_singleton]; rintro rfl; exact hp hq)]
    have hlog : log ++ (p :: ps).map (fun q => Call.poll q (view s q)) =
        log ++ [.poll p (view s p)] ++ ps.map fun q => Call.poll q (view s q) := by
      rw [List.map_cons, List.append_assoc, List.singleton_append]
    simp only [Job.pollAll, hr, hlog]
    cases (h.poll p s).1.status? with
    | none => simp only [ih hn, hps]
    | some e => simp only [ih hn, hps]

theorem pollJobs_recorded (ht : h.Tells view) (js : List Job) (hn : (js.flatMap Job.pids).Nodup)
    (s : σ) (log : List Call) :
    (pollJobs h.recorded js ⟨s, log⟩).2 =
      ⟨(pollJobs h js s).2, log ++ (js.flatMap Job.pids).map fun p => .poll p (view s p)⟩ := by
  induction js generalizing s log with
  | nil => simp [pollJobs]
  | cons j js ih =>
    rw [List.flatMap_cons] at hn
    obtain ⟨hj, hjs, hd⟩ := List.nodup_append'.mp hn
    have hp : (j.poll h.recorded ⟨s, log⟩).2 =
        ⟨(j.poll h s).2, log ++ j.pids.map fun p => .poll p (view s p)⟩ :=
      pollAll_recorded ht _ _ hj _ s log
    have hrest : ((js.flatMap Job.pids).map fun p => Call.poll p (view (j.poll h s).2 p)) =
        (js.flatMap Job.pids).map fun p => Call.poll p (view s p) := by
      refine List.map_congr_left fun p hp => ?_
      rw [Job.view_poll ht, View.collect_of_notMem fun hm => hd hm hp]
    simp only [pollJobs, hp, ih hjs, hrest, List.flatMap_cons, List.map_append, List.append_assoc]

/-- A reap asks once after each process in the table. -/
theorem log_reap (ht : h.Tells view) {t : JobTable} (hn : t.pids.Nodup) (s : σ) :
    (t.reap h.recorded ⟨s, []⟩).2.log = t.pids.map fun p => .poll p (view s p) := by
  have hp := pollJobs_recorded ht t.jobs hn s []
  exact congrArg Recorded.log hp

/-! ### The books -/

/-- What holds of a table in a state after some events, and of the next reap. -/
structure Books (h : Host σ) (view : σ → View) (es : List Event) (t : JobTable) (s : σ) : Prop where
  pos : ∀ j ∈ t.jobs, 1 ≤ j.id
  increasing : t.jobs.Pairwise fun j k => j.id < k.id
  /-- What was entered under a number is reported once before the next, or is in the table. -/
  turns : ∀ n, ∃ cmdlines : List String,
    account n es = cmdlines.flatMap settled ++ openLines n t.jobs
  holds : t.jobs.map Job.outline = (pending es).map Pending.outline
  /-- The next reap reports the jobs whose stages have all exited by then. -/
  reported : (t.reap h s).1.1.map FinishedJob.label =
    (((pending es).map (Pending.later (view s))).filter (·.hasEnded)).map (·.job.label)
  inOrder : (t.reap h s).1.1.Pairwise fun f g => f.id < g.id
  /-- It keeps the others. -/
  kept : (t.reap h s).1.2.jobs.map Job.outline =
    (((pending es).map (Pending.later (view s))).filter (!·.hasEnded)).map Pending.outline
  /-- It asks once after each of the stages that the pending jobs have left. -/
  asked : (t.reap h.recorded ⟨s, []⟩).2.log =
    ((pending es).flatMap Pending.left).map fun p => .poll p (view s p)
  /-- A stage that a job has left was found running whenever it was asked after for the job. -/
  uncollected : ∀ x ∈ pending es, ∀ p ∈ x.left,
    p ∈ x.job.pids ∧ ∀ v ∈ x.since, v.runs p = true

/-- A table that was empty keeps its books, however jobs are added and reaped and whenever their
processes end. -/
theorem keeps_books (ht : h.Tells view) {t : JobTable} {s s' : σ} {es : List Event}
    (hr : Run h view {} s es t s') : Books h view es t s' := by
  have hs : t.Sound := hr.sound ht sound_empty
  have ho := hr.outlines_eq ht
  have hlabels : (t.reap h s').1.1.map FinishedJob.label =
      ((t.seen (view s')).filter (·.isFinished)).map Job.label := by
    rw [reap_finished ht hs.nodup, List.map_map]
    rfl
  refine ⟨hr.id_pos ht, hs.increasing, hr.account_eq ht, ho, ?_, ?_, ?_, ?_, ?_⟩
  · rw [hlabels]
    exact map_label_eq (map_outline_filter ho (view s') id)
  · rw [reap_finished ht hs.nodup, List.pairwise_map]
    exact (hs.seen (view s')).filter _
  · rw [reap_jobs ht hs.nodup]
    exact map_outline_filter ho (view s') (!·)
  · have hp := congrArg (List.flatMap Prod.snd) ho
    rw [List.flatMap_map, List.flatMap_map] at hp
    rw [log_reap ht hs.nodup]
    exact congrArg _ hp
  · intro x _ p hp
    exact ⟨(List.mem_filter.mp hp).1, runs_of_mem_remaining hp⟩

end

/-! ### A number given to a process again -/

open Machine (Desk)

/-- The machine with two processes after a reap, at time 1, when the number of the process that was
collected is in use again. -/
def renumbered (t : JobTable) : Desk :=
  let d := (t.reap Desk.host twoStages).2
  { d with machine := { d.machine with
    clock := 1
    processes := d.machine.processes.insert 2 ⟨.exited 3, 5⟩ } }

/-- A number that was collected for the first job comes back in the second. The first job ends
without regard to it. -/
theorem keeps_books_renumbered :
    let t := ({} : JobTable).add [1, 2] "a | b &"
    let t' := (t.reap Desk.host twoStages).1.2
    let d := renumbered t
    let es := [.added (entry {} [1, 2] "a | b &"), .reaped twoStages.view [],
      .added (t'.entry [2] "c &")]
    Run Desk.host Desk.view {} twoStages es (t'.add [2] "c &") d ∧
      Books Desk.host Desk.view es (t'.add [2] "c &") d ∧
      ((t'.add [2] "c &").reap Desk.host d).1.1 = [⟨1, "a | b &", 137⟩] := by
  intro t t' d es
  have he : (t.reap Desk.host twoStages).1.1 = [] := by decide
  have hr : Run Desk.host Desk.view {} twoStages es (t'.add [2] "c &") d := by
    have h₀ : Run Desk.host Desk.view {} twoStages [] {} twoStages := .start
    have h₁ := (h₀.add [1, 2] "a | b &" ⟨by decide, by decide, by decide⟩).reap
    rw [he] at h₁
    have h₂ : Run Desk.host Desk.view {} twoStages _ t' d := h₁.pass (by decide)
    exact h₂.add [2] "c &" ⟨by decide, by decide, by decide⟩
  exact ⟨hr, keeps_books Desk.host_tells hr, by decide⟩

end JobTable

end AssistedShell
