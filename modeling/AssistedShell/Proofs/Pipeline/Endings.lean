import AssistedShell.Machine.Kernel
import AssistedShell.Proofs.Pipeline.Stages
import Mathlib.Data.List.Perm.Subperm
import Mathlib.Data.Option.Basic

/-! How the stages of a pipeline end on the machine. What the shell has opened for
a stage is open when its process starts, so a process always gets its input and
output. Then it either complains and exits, or becomes a program, or fails to
become one; and how the last one ends is what the pipeline ends with. -/

namespace AssistedShell

open Launch

/-- There is a descriptor that is not in use. -/
theorem Descriptors.get?_lowest {α : Type} (t : Descriptors α) : t.get? t.lowest = none := by
  rw [lowest]
  rcases hf : (List.range (t.entries.length + 1)).find? fun d => (t.get? d).isNone with _ | d
  · -- The descriptors below would all be in use, and they are too many.
    exfalso
    have hs : List.range (t.entries.length + 1) ⊆ t.entries.map Prod.fst := by
      intro d hd
      have hn := List.find?_eq_none.mp hf d hd
      rcases hg : t.get? d with _ | o
      · exact absurd (by rw [hg]; rfl) hn
      · exact List.mem_map.mpr ⟨(d, o), mem_of_get? hg, rfl⟩
    have := (List.subperm_of_subset List.nodup_range hs).length_le
    rw [List.length_range, List.length_map] at this
    omega
  · exact Option.isNone_iff_eq_none.mp (by simpa using List.find?_some hf)

theorem Child.isSome_wire {α : Type} {c : Child} {t : Descriptors α}
    (hin : ∀ d ∈ c.stdin, (t.get? d).isSome) (hout : ∀ d ∈ c.stdout, (t.get? d).isSome) :
    (c.wire t).isSome := by
  have hp : ∀ (t' : Descriptors α) (source : Option Descriptor) (target : Descriptor),
      (∀ d ∈ source, (t'.get? d).isSome) → ∃ t'', t'.place source target = some t'' ∧
        ∀ d, (t'.get? d).isSome → (t''.get? d).isSome := by
    intro t' source target hs
    cases source with
    | none => exact ⟨t', rfl, fun d hd => hd⟩
    | some s =>
      obtain ⟨o, ho⟩ := Option.isSome_iff_exists.mp (hs s rfl)
      refine ⟨t'.insert target { o with closeOnExec := false }, ?_, fun d hd => ?_⟩
      · rw [Descriptors.place, Descriptors.redirect, ho]
      · rw [Descriptors.get?_insert]
        by_cases h : d = target
        · rw [if_pos h]
          rfl
        · rwa [if_neg h]
  obtain ⟨t₁, h₁, hk⟩ := hp t c.stdin 0 hin
  obtain ⟨t₂, h₂, -⟩ := hp t₁ c.stdout 1 fun d hd => hk d (hout d hd)
  rw [wire, h₁, Option.bind_some, h₂]
  rfl

namespace Machine.Desk

/-! ### Open files -/

/-- Whether descriptors are open at a desk, each a different one. -/
structure Holds (d : Desk) (fds : List Descriptor) : Prop where
  nodup : fds.Nodup
  held : ∀ fd ∈ fds, (d.held.get? fd).isSome

section
variable {shell : Program} {d d' : Desk} {fds : List Descriptor}

theorem Holds.of_held_eq (hd : d.Holds fds) (he : d'.held = d.held) : d'.Holds fds :=
  ⟨hd.nodup, by rw [he]; exact hd.held⟩

theorem Holds.perm {fds' : List Descriptor} (hd : d.Holds fds) (hp : fds.Perm fds') :
    d.Holds fds' :=
  ⟨hp.nodup_iff.mp hd.nodup, fun fd hm => hd.held fd (hp.mem_iff.mpr hm)⟩

/-- What is open for the shell is open for its children. -/
theorem isSome_table {fd : Descriptor} (hd : (d.held.get? fd).isSome) :
    (d.table.get? fd).isSome := by
  simp only [table, Descriptors.get?_insert]
  split
  · rfl
  split
  · rfl
  split
  · rfl
  exact hd

theorem Holds.hold (hd : d.Holds fds) (file : Nat) :
    (d.hold file).2.Holds ((d.hold file).1 :: fds) where
  nodup := by
    refine List.nodup_cons.mpr ⟨fun hm => ?_, hd.nodup⟩
    have := isSome_table (hd.held _ hm)
    rw [show (d.hold file).1 = d.table.lowest from rfl, Descriptors.get?_lowest] at this
    cases this
  held := by
    intro fd hm
    have hg : (d.hold file).2.held.get? fd =
        if fd = (d.hold file).1 then some ⟨file, true⟩ else d.held.get? fd :=
      Descriptors.get?_insert _ _ _ _
    rw [hg]
    split
    · rfl
    · rename_i hne
      exact hd.held fd ((List.mem_cons.mp hm).resolve_left hne)

/-- What is opened takes one descriptor. -/
theorem Holds.of_hold_eq (hd : d.Holds fds) {m : State} {file : Nat} {fd : Descriptor}
    (he : { d with machine := m }.hold file = (fd, d')) : d'.Holds (fd :: fds) := by
  have hm : Holds { d with machine := m } fds := hd.of_held_eq rfl
  have hh := hm.hold file
  rwa [he] at hh

theorem Holds.openPath (hd : d.Holds fds) {path : String} {a : Disk.Access} {append : Bool}
    {fd : Descriptor} (ho : d.openPath path a append = (.ok fd, d')) : d'.Holds (fd :: fds) := by
  rw [Desk.openPath] at ho
  split at ho
  · cases ho
  · obtain ⟨hfd, hd'⟩ := Prod.mk.inj ho
    exact hd.of_hold_eq (Prod.ext (Except.ok.inj hfd) hd')

theorem Holds.stageText (hd : d.Holds fds) {text : String} {fd : Descriptor}
    (ht : d.stageText text = (.ok fd, d')) : d'.Holds (fd :: fds) := by
  obtain ⟨hfd, hd'⟩ := Prod.mk.inj ht
  exact hd.of_hold_eq (Prod.ext (Except.ok.inj hfd) hd')

theorem Holds.makePipe (hd : d.Holds fds) {r w : Descriptor}
    (hp : d.makePipe = (.ok (r, w), d')) : d'.Holds (w :: r :: fds) := by
  have hm : ∃ d₀ : Desk, ∃ f g, d₀.held = d.held ∧ d.makePipe =
      (.ok ((d₀.hold f).1, ((d₀.hold f).2.hold g).1), ((d₀.hold f).2.hold g).2) :=
    ⟨{ d with machine := d.machine.pipe.2 }, d.machine.pipe.1.1, d.machine.pipe.1.2, rfl, rfl⟩
  obtain ⟨d₀, f, g, he, hm⟩ := hm
  rw [hm] at hp
  obtain ⟨hrw, rfl⟩ := Prod.mk.inj hp
  obtain ⟨rfl, rfl⟩ := Prod.mk.inj (Except.ok.inj hrw)
  exact ((hd.of_held_eq he).hold f).hold g

theorem Holds.close {fd : Descriptor} (hd : d.Holds (fd :: fds)) : (d.close fd).Holds fds where
  nodup := (List.nodup_cons.mp hd.nodup).2
  held := by
    intro fd' hm
    have hne : fd' ≠ fd := fun h => (List.nodup_cons.mp hd.nodup).1 (h ▸ hm)
    have hg : (d.close fd).held.get? fd' = if fd' = fd then none else d.held.get? fd' :=
      Descriptors.get?_erase _ _ _
    rw [hg, if_neg hne]
    exact hd.held fd' (List.mem_cons_of_mem _ hm)

theorem Holds.closeAll {ds : List Descriptor} (hd : d.Holds (ds ++ fds)) :
    (Launch.closeAll (hostOn shell) ds d).Holds fds := by
  induction ds generalizing d with
  | nil => exact hd
  | cons fd ds ih => exact ih hd.close

variable {env : Environment} {cwd : String}

theorem Holds.openStdin (hd : d.Holds fds) {plan : StdinPlan} {source : Option Descriptor}
    (ho : Launch.openStdin (hostOn shell) cwd plan d = (.ok source, d')) :
    d'.Holds (source.toList ++ fds) := by
  cases plan with
  | inherit | pipe =>
    cases ho
    exact hd
  | file path =>
    have hh : (hostOn shell).openInput (joinPath cwd path) d =
      d.openPath (joinPath cwd path) { read := true } false := rfl
    rw [Launch.openStdin, hh] at ho
    rcases hp : d.openPath (joinPath cwd path) { read := true } false with ⟨f | fd, t⟩
    all_goals
      rw [hp] at ho
      cases ho
    exact hd.openPath hp
  | hereDoc text =>
    have hh : (hostOn shell).stageText text d = d.stageText text := rfl
    rw [Launch.openStdin, hh] at ho
    rcases hp : d.stageText text with ⟨f | fd, t⟩
    all_goals
      rw [hp] at ho
      cases ho
    exact hd.stageText hp

theorem Holds.openStdout (hd : d.Holds fds) {plan : StdoutPlan} {target : Option Descriptor}
    (ho : Launch.openStdout (hostOn shell) cwd plan d = (.ok target, d')) :
    d'.Holds (target.toList ++ fds) := by
  cases plan with
  | inherit | pipe =>
    cases ho
    exact hd
  | file t =>
    have hh : (hostOn shell).openOutput (joinPath cwd t.path) t.append d =
      d.openPath (joinPath cwd t.path) { write := true, create := true, truncate := !t.append }
        t.append := rfl
    rw [Launch.openStdout, hh] at ho
    rcases hp : d.openPath (joinPath cwd t.path)
      { write := true, create := true, truncate := !t.append } t.append with ⟨f | fd, u⟩
    all_goals
      rw [hp] at ho
      cases ho
    exact hd.openPath hp

theorem Holds.prepare (hd : d.Holds fds) {stage : Stage} {plan : StagePlan} {p : Prepared}
    (hp : Launch.prepare (hostOn shell) env cwd stage plan d = (.ok p, d')) :
    d'.Holds (p.descriptors ++ fds) := by
  obtain ⟨rfl, -, hin, hout⟩ := prepare_ok hp
  have hi := hd.openStdin (Prod.ext hin rfl)
  have ho := hi.openStdout (Prod.ext hout rfl)
  refine ho.perm ?_
  rw [Prepared.descriptors, ← List.append_assoc]
  exact List.perm_append_comm.append_right fds

theorem Holds.prepareAll (hd : d.Holds fds) {stages : List (Stage × StagePlan)}
    {ps : List Prepared}
    (hp : Launch.prepareAll (hostOn shell) env cwd stages d = (.ok ps, d')) :
    d'.Holds (ps.flatMap Prepared.descriptors ++ fds) := by
  induction stages generalizing d ps fds with
  | nil =>
    cases hp
    exact hd
  | cons x rest ih =>
    obtain ⟨stage, plan⟩ := x
    rw [Launch.prepareAll] at hp
    rcases h₁ : Launch.prepare (hostOn shell) env cwd stage plan d with ⟨f | p, d₁⟩
    all_goals
      rw [h₁] at hp
      dsimp only at hp
    · cases hp
    rcases h₂ : Launch.prepareAll (hostOn shell) env cwd rest d₁ with ⟨f | qs, d₂⟩
    all_goals
      rw [h₂] at hp
      cases hp
    refine (ih (hd.prepare h₁) h₂).perm ?_
    rw [List.flatMap_cons, ← List.append_assoc]
    exact List.perm_append_comm.append_right fds

/-! ### The life of a child -/

/-- The state of the machine in which a child has its number. -/
def numbered (d : Desk) : State := { d.machine with nextPid := d.machine.nextPid + 1 }

/-- A child's own view of the machine, with its input and output in their places. -/
def contextOf (d : Desk) (env : Environment) (child : Child) : Context :=
  d.childContext env ((child.wire d.table).getD d.table) d.machine.nextPid

/-- What a child's output leads to. -/
def outputOf (d : Desk) (child : Child) : Nat :=
  (((child.wire d.table).getD d.table).leadsTo? 1).getD d.console.output

/-- A child writes a complaint and ends. -/
def complains (d : Desk) (env : Environment) (child : Child) (complaint : String) (code : UInt8)
    (m : State) : State :=
  let c := d.contextOf env child
  ((do c.complain complaint; enter d.machine.nextPid (.exited code) c.now (d.outputOf child) :
    Act Unit).run m).2

variable (shell env) in
/-- A child whose input and output are open lives, and is entered with its ending. -/
theorem spawn_eq {t : Descriptors Nat} {child : Child} (hw : child.wire d.table = some t) :
    let c := d.contextOf env child
    let life : Act Unit := do
      let o ← child.live true (exec shell launchDepth c) (giveUp c)
      enter d.machine.nextPid o.ending o.now (d.outputOf child)
    d.spawn shell env child =
      (.ok d.machine.nextPid, { d with machine := (life.run d.numbered).2 }) := by
  rw [contextOf, outputOf, spawn, hw]
  rfl

variable (shell env) in
theorem spawn_refusal {t : Descriptors Nat} {child : Child} (hw : child.wire d.table = some t)
    {complaint : String} {code : UInt8} (hi : child.image = .refusal complaint code) :
    d.spawn shell env child = (.ok d.machine.nextPid,
      { d with machine := d.complains env child complaint code d.numbered }) := by
  rw [spawn_eq shell env hw, Child.live_refusal hi]
  rfl

theorem spawn_program {t : Descriptors Nat} {child : Child} (hw : child.wire d.table = some t)
    {path complaint : String} {words : List String}
    (hi : child.image = .program path words complaint) :
    d.spawn shell env child = (.ok d.machine.nextPid, { d with machine :=
      match (exec shell launchDepth (d.contextOf env child) path words).run d.numbered with
      | (.ok o, m) => ((enter d.machine.nextPid o.ending o.now (d.outputOf child)).run m).2
      | (.error e, m) => d.complains env child complaint (ExitCode.ofErrno e) m }) := by
  rw [spawn_eq shell env hw, Child.live_program hi]
  rcases hx : (exec shell launchDepth (d.contextOf env child) path words).run d.numbered
    with ⟨e | o, m⟩
  all_goals
    simp only [StateT.run_bind, hx]
    rfl

theorem spawn_fst {t : Descriptors Nat} {child : Child} (hw : child.wire d.table = some t) :
    (d.spawn shell env child).1 = .ok d.machine.nextPid := by
  cases hi : child.image with
  | refusal complaint code => rw [spawn_refusal shell env hw hi]
  | program path words complaint => rw [spawn_program hw hi]

/-- How the process of a stage ends, by where the name of the stage leads: without a program it
complains and runs nothing, and otherwise it ends as the program does, or with a status that tells
whether there was no such file. -/
inductive Ends (shell : Program) (env : Environment) (d : Desk) (child : Child)
    (words : List String) : Resolution → Ending → Prop where
  | notFound {complaint} : (d.spawn shell env child).2 =
      { d with machine := d.complains env child complaint 127 d.numbered } →
      Ends shell env d child words .notFound (.exited 127)
  | notExecutable {complaint} : (d.spawn shell env child).2 =
      { d with machine := d.complains env child complaint 126 d.numbered } →
      Ends shell env d child words .notExecutable (.exited 126)
  | ran {path o m} :
      (exec shell launchDepth (d.contextOf env child) path words).run d.numbered = (.ok o, m) →
      Ends shell env d child words (.found path) o.ending
  | missing {path m} : (exec shell launchDepth (d.contextOf env child) path words).run d.numbered =
      (.error .noEntry, m) → Ends shell env d child words (.found path) (.exited 127)
  | failed {path e m} : e ≠ .noEntry →
      (exec shell launchDepth (d.contextOf env child) path words).run d.numbered = (.error e, m) →
      Ends shell env d child words (.found path) (.exited 126)

theorem processes_enter (pid : Pid) (ending : Ending) (now file : Nat) (m : State) :
    ((enter pid ending now file).run m).2.processes[pid]? = some ⟨ending, now⟩ := by
  have hs : ∀ m : State, (settle m file now).processes = m.processes := by
    intro m
    rw [settle]
    split
    · rfl
    · rfl
  have he : ((enter pid ending now file).run m).2.processes =
      m.processes.insert pid ⟨ending, now⟩ := hs _
  rw [he]
  simp

theorem processes_complains (child : Child) (complaint : String) (code : UInt8) (m : State) :
    (d.complains env child complaint code m).processes[d.machine.nextPid]? =
      some ⟨.exited code, (d.contextOf env child).now⟩ :=
  processes_enter _ _ _ _ _

variable (shell env) in
/-- A process whose input and output are open ends as its stage lets it. -/
theorem spawn_ends {t : Descriptors Nat} {child : Child} (hw : child.wire d.table = some t)
    {stage : Stage} {r : Resolution} (hs : Serves stage r child.image) :
    ∃ ending now, Ends shell env d child stage.words r ending ∧
      (d.spawn shell env child).2.machine.processes[d.machine.nextPid]? = some ⟨ending, now⟩ := by
  generalize hi : child.image = image at hs
  cases hs with
  | notFound complaint =>
    have he := spawn_refusal shell env hw hi
    rw [he]
    exact ⟨_, _, .notFound (by rw [he]; rfl), processes_complains _ _ _ _⟩
  | notExecutable complaint =>
    have he := spawn_refusal shell env hw hi
    rw [he]
    exact ⟨_, _, .notExecutable (by rw [he]; rfl), processes_complains _ _ _ _⟩
  | found path complaint =>
    rw [spawn_program hw hi]
    rcases hx : (exec shell launchDepth (d.contextOf env child) path stage.words).run d.numbered
      with ⟨e | o, m⟩
    · by_cases he : e = .noEntry
      · subst he
        exact ⟨_, _, .missing hx, processes_complains _ _ _ _⟩
      · refine ⟨_, (d.contextOf env child).now, .failed he hx, ?_⟩
        dsimp only
        rw [ExitCode.ofErrno_of_ne he]
        exact processes_complains _ _ _ _
    · exact ⟨_, _, .ran hx, processes_enter _ _ _ _ _⟩

/-! ### Starting -/

/-- A child leaves open what was open. -/
theorem spawn_held (child : Child) : (d.spawn shell env child).2.held = d.held := rfl

variable (shell) in
theorem exists_pipeAfter (hd : d.Holds fds) (rest : List Prepared) :
    ∃ pipe d', pipeAfter (hostOn shell) rest d = (.ok pipe, d') ∧
      d'.Holds ((pipe.map (·.2)).toList ++ (pipe.map (·.1)).toList ++ fds) := by
  cases rest with
  | nil => exact ⟨none, d, rfl, hd⟩
  | cons q rest =>
    rcases hp : d.makePipe with ⟨f | ⟨r, w⟩, d'⟩
    · cases hp
    · refine ⟨some (r, w), d', ?_, hd.makePipe hp⟩
      have hh : (hostOn shell).makePipe d = d.makePipe := rfl
      rw [pipeAfter, hh, hp]
      rfl

variable (shell env) in
/-- On the machine all stages start, and each has its input and output open. -/
theorem Holds.exists_forks {previous : Option Descriptor} {stages : List Prepared}
    (hd : d.Holds (waiting previous stages)) :
    ∃ forks d', Forks (hostOn shell) env stages previous d forks d' ∧
      ∀ f ∈ forks, ∃ t, f.child.wire f.state.table = some t := by
  induction stages generalizing previous d with
  | nil => exact ⟨[], _, .done previous d, fun f hf => nomatch hf⟩
  | cons p rest ih =>
    obtain ⟨pipe, d₁, hp, h₁⟩ := exists_pipeAfter shell hd rest
    have hopen (fd : Descriptor)
        (hm : fd ∈
          (pipe.map (·.2)).toList ++ (pipe.map (·.1)).toList ++ waiting previous (p :: rest)) :
        (d₁.table.get? fd).isSome := isSome_table (h₁.held fd hm)
    obtain ⟨t, hw⟩ : ∃ t, (childOf p previous pipe).wire d₁.table = some t := by
      refine Option.isSome_iff_exists.mp (Child.isSome_wire ?_ ?_)
      · intro fd hm
        refine hopen fd (List.mem_append_right _ ?_)
        rcases (Option.orElse_eq_some _ _ _).mp hm with hm | ⟨-, hm⟩
        · simp [waiting, Option.mem_toList.mpr hm]
        · simp [waiting, Prepared.descriptors, Option.mem_toList.mpr hm]
      · intro fd hm
        refine hopen fd ?_
        rcases (Option.orElse_eq_some _ _ _).mp hm with hm | ⟨-, hm⟩
        · simp [Option.mem_toList.mpr hm]
        · simp [waiting, Prepared.descriptors, Option.mem_toList.mpr hm]
    -- what the stage was given and what the later ones wait for are together all that is open
    have h₂ : (d₁.spawn shell env (childOf p previous pipe)).2.Holds
        (handedOver p previous pipe ++ waiting (pipe.map (·.1)) rest) := by
      refine (h₁.of_held_eq (spawn_held _)).perm (List.perm_iff_count.mpr fun fd => ?_)
      simp only [waiting, handedOver, List.flatMap_cons, List.count_append]
      omega
    obtain ⟨forks, d₃, hf, hall⟩ := ih h₂.closeAll
    have hs : (hostOn shell).spawn env (childOf p previous pipe) d₁ =
        (.ok d₁.machine.nextPid, (d₁.spawn shell env (childOf p previous pipe)).2) :=
      Prod.ext (spawn_fst hw) rfl
    exact ⟨_, d₃, .next hp hs hf, List.forall_mem_cons.mpr ⟨⟨t, hw⟩, hall⟩⟩

theorem closeAll_machine (ds : List Descriptor) :
    (closeAll (hostOn shell) ds d).machine = d.machine := by
  induction ds generalizing d with
  | nil => rfl
  | cons fd ds ih => exact ih

/-- Nothing is done to the last process before the shell waits. -/
theorem processes_of_forks {previous : Option Descriptor} {stages : List Prepared}
    {forks : List (Forked Desk)} (hf : Forks (hostOn shell) env stages previous d forks d')
    {f : Forked Desk} (hl : forks.getLast? = some f) :
    d'.machine.processes = (f.state.spawn shell env f.child).2.machine.processes := by
  induction hf with
  | done => cases hl
  | @next p rest previous s pipe s₁ pid s₂ forks s₃ hp hs hf ih =>
    cases hf with
    | done =>
      obtain rfl : (⟨s₁, childOf p previous pipe, pid⟩ : Forked Desk) = f := Option.some.inj hl
      have hs : s₁.spawn shell env (childOf p previous pipe) = (.ok pid, s₂) := hs
      rw [hs, closeAll_machine, closeAll_machine]
    | next hp' hs' hf' => exact ih (by simpa [List.getLast?_cons_cons] using hl)

/-! ### Waiting -/

theorem await_ok {pid : Pid} {ending : Ending} (ha : d.await pid = (.ok ending, d')) :
    (∃ now, d.machine.processes[pid]? = some ⟨ending, now⟩) ∧
      d'.machine.processes = d.machine.processes.erase pid := by
  rw [await] at ha
  split at ha
  · cases ha
  · rename_i p hp
    obtain ⟨he, rfl⟩ := Prod.mk.inj ha
    split at he
    · cases he
    · cases he
      exact ⟨⟨p.endsAt, hp⟩, rfl⟩

/-- No process is waited for twice with success, and each answer is the ending of its process, no
matter when it ended. -/
theorem entries_of_waits {pids : List Pid} {endings : List Ending}
    (hw : Waits (hostOn shell) pids d endings d') :
    pids.Nodup ∧ endings.length = pids.length ∧ ∀ (i : Nat) pid, pids[i]? = some pid →
      ∃ ending now, endings[i]? = some ending ∧
        d.machine.processes[pid]? = some ⟨ending, now⟩ := by
  induction hw with
  | done => exact ⟨List.nodup_nil, rfl, fun i pid hi => by simp at hi⟩
  | @next pid pids s ending s₁ endings s₂ ha hw ih =>
    obtain ⟨⟨now, hp⟩, he⟩ := await_ok (d := s) ha
    obtain ⟨hn, hlen, hall⟩ := ih
    refine ⟨List.nodup_cons.mpr ⟨fun hm => ?_, hn⟩, by simp [hlen], fun i q hi => ?_⟩
    · obtain ⟨i, hi⟩ := List.mem_iff_getElem?.mp hm
      obtain ⟨e, now', -, hq⟩ := hall i pid hi
      simp [he] at hq
    · cases i with
      | zero =>
        obtain rfl : pid = q := Option.some.inj hi
        exact ⟨ending, now, rfl, hp⟩
      | succ i =>
        obtain ⟨e, now', hi', hq⟩ := hall i q hi
        rw [he, Std.TreeMap.getElem?_erase] at hq
        split at hq
        · cases hq
        · exact ⟨e, now', hi', hq⟩

end

end Machine.Desk

namespace Pipeline

open Machine (Desk launchDepth)

/-- How the stages of a pipeline fare on the machine. The processes end as the names of the stages
and their programs let them, no process is waited for twice, and the last one is told to end as it
does. -/
structure Fares (shell : Machine.Program) (p : Pipeline) (env : Environment) (cwd : String)
    (d : Desk) (forks : List (Forked Desk)) (told endings : List Ending) : Prop where
  ends : ∀ (i : Nat) stage, p.stages[i]? = some stage → ∃ sight f ending now,
    (sights (Desk.hostOn shell) cwd p.planned d)[i]? = some sight ∧ forks[i]? = some f ∧
      endings[i]? = some ending ∧
        Desk.Ends shell env f.state f.child stage.words
          (lookup (Desk.hostOn shell) env cwd stage sight) ending ∧
            (f.state.spawn shell env f.child).2.machine.processes[f.pid]? = some ⟨ending, now⟩
  count : endings.length = p.stages.length
  once : p.background = false → (forks.map Forked.pid).Nodup
  last : p.background = false → told.getLast? = endings.getLast?

section
variable {shell : Machine.Program} {env : Environment} {cwd : String} {d d₁ d₂ d₃ : Desk}
  {p : Pipeline} {stages : List Prepared} {forks : List (Forked Desk)} {told : List Ending}

/-- How each process will end is known when it has started. -/
theorem exists_endings (hp : prepareAll (Desk.hostOn shell) env cwd p.planned d = (.ok stages, d₁))
    (hf : Forks (Desk.hostOn shell) env stages none d₁ forks d₂)
    (hw : ∀ f ∈ forks, ∃ t, f.child.wire f.state.table = some t) :
    ∃ endings : List Ending, endings.length = p.stages.length ∧
      ∀ (i : Nat) stage, p.stages[i]? = some stage → ∃ sight f ending now,
        (sights (Desk.hostOn shell) cwd p.planned d)[i]? = some sight ∧ forks[i]? = some f ∧
          endings[i]? = some ending ∧
            Desk.Ends shell env f.state f.child stage.words
              (lookup (Desk.hostOn shell) env cwd stage sight) ending ∧
                (f.state.spawn shell env f.child).2.machine.processes[f.pid]? =
                  some ⟨ending, now⟩ := by
  have hfare (i : Fin p.stages.length) : ∃ sight f ending now,
      (sights (Desk.hostOn shell) cwd p.planned d)[i.val]? = some sight ∧ forks[i.val]? = some f ∧
        Desk.Ends shell env f.state f.child p.stages[i].words
          (lookup (Desk.hostOn shell) env cwd p.stages[i] sight) ending ∧
            (f.state.spawn shell env f.child).2.machine.processes[f.pid]? = some ⟨ending, now⟩ := by
    obtain ⟨sight, f, hsight, hfi, hserve, hpid⟩ :=
      (exists_fork hp hf).2 i _ (List.getElem?_eq_getElem i.isLt)
    obtain ⟨t, ht⟩ := hw f (List.mem_of_getElem? hfi)
    obtain ⟨ending, now, hends, hentry⟩ := Desk.spawn_ends shell env ht hserve
    have hpid : f.state.machine.nextPid = f.pid :=
      Except.ok.inj ((Desk.spawn_fst ht).symm.trans hpid)
    exact ⟨sight, f, ending, now, hsight, hfi, hends, hpid ▸ hentry⟩
  choose sight f ending now hsight hf hends hentry using hfare
  refine ⟨List.ofFn ending, List.length_ofFn, fun i stage hi => ?_⟩
  obtain ⟨hlt, rfl⟩ := List.getElem?_eq_some_iff.mp hi
  exact ⟨_, _, _, _, hsight ⟨i, hlt⟩, hf ⟨i, hlt⟩, by simp [hlt], hends ⟨i, hlt⟩, hentry ⟨i, hlt⟩⟩

/-- The last wait finds the last process as it was entered. -/
theorem told_last
    (hp : prepareAll (Desk.hostOn shell) env cwd p.planned d = (.ok stages, d₁))
    (hf : Forks (Desk.hostOn shell) env stages none d₁ forks d₂)
    (hw : Waits (Desk.hostOn shell) (forks.map Forked.pid) d₂ told d₃) {f : Forked Desk}
    (hlast : forks[p.stages.length - 1]? = some f) {ending : Ending} {now : Nat}
    (hentry : (f.state.spawn shell env f.child).2.machine.processes[f.pid]? = some ⟨ending, now⟩) :
    told.getLast? = some ending := by
  have hlen := (exists_fork hp hf).1
  obtain ⟨-, htold, hall⟩ := Desk.entries_of_waits hw
  rw [List.length_map, hlen] at htold
  obtain ⟨e, now', hti, he⟩ := hall (p.stages.length - 1) f.pid (by
    rw [List.getElem?_map, hlast]
    rfl)
  have hflast : forks.getLast? = some f := by rw [List.getLast?_eq_getElem?, hlen, hlast]
  rw [Desk.processes_of_forks hf hflast, hentry] at he
  rw [List.getLast?_eq_getElem?, htold, hti, Machine.Process.mk.inj (Option.some.inj he) |>.1]

end

/-- A pipeline whose stages are ready comes to what its last stage comes to, whatever becomes of the
other ones and in whatever order they end. On any system this holds if no pipe, no start and no wait
fails. On the machine only a wait can fail, and it is known how every stage ends. -/
theorem execute_status (p : Pipeline) (env : Environment) (cwd cmdline : String) (jobs : JobTable)
    (hn : p.stages ≠ []) :
    (∀ {σ : Type} (h : Host σ) (s : σ) (stages : List Prepared),
      let run := p.execute h.recorded env cwd cmdline jobs ⟨s, []⟩
      (prepareAll h env cwd p.planned s).1 = .ok stages → (∀ c ∈ run.2.log, fails c = false) →
        ∃ forks told,
          Concludes h p env cwd cmdline jobs s forks told run.2.log run.1.1 run.1.2) ∧
      ∀ (shell : Machine.Program) (d : Desk) (stages : List Prepared),
        let run := p.execute (Desk.hostOn shell).recorded env cwd cmdline jobs ⟨d, []⟩
        (prepareAll (Desk.hostOn shell) env cwd p.planned d).1 = .ok stages →
          (∀ pid fault, .await pid (.error fault) ∉ run.2.log) → ∃ forks told endings,
            Concludes (Desk.hostOn shell) p env cwd cmdline jobs d forks told run.2.log run.1.1
              run.1.2 ∧ Fares shell p env cwd d forks told endings := by
  refine ⟨fun h s stages hready hok => execute_concludes hn hready cmdline jobs hok, ?_⟩
  intro shell d stages run hready hwaits
  rcases hp : prepareAll (Desk.hostOn shell) env cwd p.planned d with ⟨_, d₁⟩
  rw [hp] at hready
  obtain rfl := hready
  have hd : d.Holds [] := ⟨List.nodup_nil, fun fd hm => nomatch hm⟩
  have hd₁ : d₁.Holds (waiting none stages) := by
    have hprep := hd.prepareAll hp
    rwa [List.append_nil] at hprep
  obtain ⟨forks, d₂, hf, hwire⟩ := hd₁.exists_forks shell env
  obtain ⟨endings, hcount, hends⟩ := exists_endings hp hf hwire
  -- In the background nothing is told, as nothing is waited for.
  obtain ⟨told, d₃, hw⟩ : ∃ told d₃, p.background = false →
      Waits (Desk.hostOn shell) (forks.map Forked.pid) d₂ told d₃ := by
    cases hb : p.background with
    | true => exact ⟨[], d₂, nofun⟩
    | false =>
      rcases ha : awaitAll (Desk.hostOn shell) (forks.map Forked.pid) 0 d₂ with ⟨f | status, d₃⟩
      · obtain ⟨pid, hm⟩ := exists_failed_wait hb hp hf ha cmdline jobs
        exact absurd hm (hwaits pid f)
      · obtain ⟨told, hw⟩ := exists_waits ha
        exact ⟨told, d₃, fun _ => hw⟩
  obtain ⟨log, result, jobs', s', hr, hc⟩ := concludes_of_forks hn hp hf hw cmdline jobs
  have hrun : run = ((result, jobs'), ⟨s', log⟩) := hr
  rw [hrun]
  refine ⟨forks, told, endings, hc, hends, hcount,
    fun hb => (Desk.entries_of_waits (hw hb)).1, fun hb => ?_⟩
  -- The last wait is the only one whose answer is the status.
  have hlt : p.stages.length - 1 < p.stages.length := by
    have := List.length_pos_iff.mpr hn
    omega
  obtain ⟨sight, f, ending, now, -, hlast, hending, -, hentry⟩ :=
    hends _ _ (List.getElem?_eq_getElem hlt)
  rw [told_last hp hf (hw hb) hlast hentry, List.getLast?_eq_getElem?, hcount, hending]

/-- Two stages without a name, of which none can be found. -/
theorem execute_status_notFound :
    let d := Desk.onDisk .empty Machine.Disk.root true (some .empty)
    let p : Pipeline := ⟨[⟨"", [], some (.hereDoc "x"), none⟩, ⟨"", [], none, none⟩], false⟩
    let shell := Machine.Desk.nested launchDepth
    let refusal : Image := .refusal "ghsh: : command not found\n" 127
    let stages : List Prepared := [⟨refusal, some 3, none⟩, ⟨refusal, none, none⟩]
    let log := (p.execute (Desk.hostOn shell).recorded {} "/" "" {} ⟨d, []⟩).2.log
    let result := (p.execute (Desk.hostOn shell).recorded {} "/" "" {} ⟨d, []⟩).1.1
    let jobs := (p.execute (Desk.hostOn shell).recorded {} "/" "" {} ⟨d, []⟩).1.2
    p.stages ≠ [] ∧ (prepareAll (Desk.hostOn shell) {} "/" p.planned d).1 = .ok stages ∧
      (∀ c ∈ log, fails c = false) ∧ (∀ pid fault, .await pid (.error fault) ∉ log) ∧
      (∃ forks told, Concludes (Desk.hostOn shell) p {} "/" "" {} d forks told log result jobs) ∧
      ∃ forks told endings,
        Concludes (Desk.hostOn shell) p {} "/" "" {} d forks told log result jobs ∧
          Fares shell p {} "/" d forks told endings := by
  intro d p shell refusal stages log result jobs
  have hn : p.stages ≠ [] := List.cons_ne_nil _ _
  have hready : (prepareAll (Desk.hostOn shell) {} "/" p.planned d).1 = .ok stages := by
    decide +kernel
  have hok : ∀ c ∈ log, fails c = false := by decide +kernel
  have hwaits : ∀ pid fault, .await pid (.error fault) ∉ log :=
    fun pid fault hm => nomatch hok _ hm
  have hstatus := execute_status p {} "/" "" {} hn
  exact ⟨hn, hready, hok, hwaits, hstatus.1 _ d stages hready hok,
    hstatus.2 shell d stages hready hwaits⟩

end Pipeline

end AssistedShell
