import AssistedShell.Machine.Kernel
import AssistedShell.Proofs.Pipeline.Handover
import Mathlib.Data.List.Forall2

/-! What the stages of a pipeline read and write when they start. The files that the
plan names are opened before, and nothing else is; the pipes are made between. -/

namespace AssistedShell

/-! ### The plan -/

def InputSource.channel (cwd : String) : InputSource → Channel
  | .file path => .input (joinPath cwd path)
  | .hereDoc text => .text text

def OutputTarget.channel (cwd : String) (target : OutputTarget) : Channel :=
  .output (joinPath cwd target.path) target.append

/-- What the stage at an index is planned to read, unless that is what the shell reads. -/
def StdinPlan.channel? (cwd : String) (index : Nat) : StdinPlan → Option Channel
  | .inherit => none
  | .pipe => some (.reader (index - 1))
  | .file path => some (.input (joinPath cwd path))
  | .hereDoc text => some (.text text)

/-- What the stage at an index is planned to write, unless that is where the shell writes. -/
def StdoutPlan.channel? (cwd : String) (index : Nat) : StdoutPlan → Option Channel
  | .inherit => none
  | .pipe => some (.writer index)
  | .file target => some (target.channel cwd)

/-- What is opened before the start for a stage to read. -/
def StdinPlan.opens? (cwd : String) : StdinPlan → Option Channel
  | .inherit | .pipe => none
  | .file path => some (.input (joinPath cwd path))
  | .hereDoc text => some (.text text)

/-- What is opened before the start for a stage to write. -/
def StdoutPlan.opens? (cwd : String) : StdoutPlan → Option Channel
  | .inherit | .pipe => none
  | .file target => some (target.channel cwd)

def StagePlan.opens (cwd : String) (plan : StagePlan) : List Channel :=
  (plan.stdin.opens? cwd).toList ++ (plan.stdout.opens? cwd).toList

theorem Stage.plan_stdin_ne_pipe_iff (s : Stage) (index count : Nat) :
    (s.plan index count).stdin ≠ .pipe ↔ index = 0 := by
  by_cases hi : index = 0
  · rcases hs : s.input with - | (path | text) <;> simp [Stage.plan, hi, hs]
  · simp [Stage.plan, hi]

theorem Stage.plan_stdout_ne_pipe_iff (s : Stage) (index count : Nat) :
    (s.plan index count).stdout ≠ .pipe ↔ index + 1 = count := by
  by_cases hi : index + 1 = count
  · cases hs : s.output <;> simp [Stage.plan, hi, hs]
  · simp [Stage.plan, hi]

namespace Pipeline

/-- What the first stage is told to read and the last one to write. -/
def openings (p : Pipeline) (cwd : String) : List Channel :=
  ((p.stages.head?.bind Stage.input).map (·.channel cwd)).toList ++
    ((p.stages.getLast?.bind Stage.output).map (·.channel cwd)).toList

theorem stdin_opens_of_ne_zero (cwd : String) (s : Stage) {i : Nat} (count : Nat) (hi : i ≠ 0) :
    (s.plan i count).stdin.opens? cwd = none := by
  simp [Stage.plan, hi, StdinPlan.opens?]

theorem stdout_opens (cwd : String) (s : Stage) (i count : Nat) :
    (s.plan i count).stdout.opens? cwd =
      if i + 1 = count then s.output.map (·.channel cwd) else none := by
  by_cases hi : i + 1 = count
  · cases ho : s.output <;> simp [Stage.plan, hi, ho, StdoutPlan.opens?]
  · simp [Stage.plan, hi, StdoutPlan.opens?]

/-- Behind the first stage only the output of the last one is opened. -/
theorem flatMap_opens (cwd : String) (stages : List Stage) {i count : Nat} (hi : i ≠ 0)
    (hc : i + stages.length = count) :
    (stages.mapIdx fun k s => (s, s.plan (i + k) count)).flatMap (fun sp => sp.2.opens cwd) =
      ((stages.getLast?.bind Stage.output).map (·.channel cwd)).toList := by
  induction stages generalizing i with
  | nil => rfl
  | cons s rest ih =>
    rw [List.length_cons] at hc
    have hrest := ih (i := i + 1) (by omega) (by omega)
    have hk : (fun k (s : Stage) => (s, s.plan (i + (k + 1)) count)) =
        fun k s => (s, s.plan (i + 1 + k) count) := by
      funext k s
      rw [Nat.add_assoc, Nat.add_comm 1 k]
    rw [List.mapIdx_cons, List.flatMap_cons, hk, hrest]
    dsimp only [StagePlan.opens, Nat.add_zero]
    rw [stdin_opens_of_ne_zero cwd s count hi, stdout_opens]
    cases rest with
    | nil => simp [← hc]
    | cons q rest =>
      rw [List.length_cons] at hc
      rw [if_neg (by omega), List.getLast?_cons_cons]
      rfl

/-- What is planned to be opened is what the first stage is told to read and the last one to
write. -/
theorem flatMap_planned (p : Pipeline) (cwd : String) :
    p.planned.flatMap (fun sp => sp.2.opens cwd) = p.openings cwd := by
  obtain ⟨stages, background⟩ := p
  cases stages with
  | nil => rfl
  | cons s rest =>
    have hrest := flatMap_opens cwd rest (i := 1) Nat.one_ne_zero (Nat.add_comm 1 _)
    have hk : (fun k (s : Stage) => (s, s.plan (k + 1) (rest.length + 1))) =
        fun k s => (s, s.plan (1 + k) (rest.length + 1)) := by
      funext k s
      rw [Nat.add_comm 1 k]
    have hin : (s.plan 0 (rest.length + 1)).stdin.opens? cwd = s.input.map (·.channel cwd) := by
      rcases hi : s.input with - | (path | text) <;>
        simp [Stage.plan, hi, StdinPlan.opens?, InputSource.channel]
    rw [planned, List.length_cons, List.mapIdx_cons, List.flatMap_cons, hk, hrest]
    dsimp only [StagePlan.opens]
    rw [hin, stdout_opens, openings]
    cases rest with
    | nil => simp
    | cons q rest => simp [List.getLast?_cons_cons]

end Pipeline

namespace Launch

open Holdings

/-- What the shell holds before it runs a pipeline: the standard input and output that it has from
its start, which its children share, and no pipe. -/
structure AtRest (t : Holdings) (c₀ c₁ : Channel) : Prop extends t.Unpiped where
  stdin : t.get? 0 = some ⟨c₀, false⟩
  stdout : t.get? 1 = some ⟨c₁, false⟩

/-! ### Making ready -/

/-- How calls add open files: the descriptors were free, and nothing else has changed. -/
structure Gains (t t' : Holdings) (ds : List Descriptor) : Prop where
  kept : ∀ d o, t.get? d = some o → t'.get? d = some o
  free : ∀ d ∈ ds, t.get? d = none
  held : ∀ d ∈ ds, (t'.leadsTo? d).isSome
  nodup : ds.Nodup
  noEnds : ∀ d c, t'.leadsTo? d = some c → t.leadsTo? d = some c ∨ c.isPipeEnd = false
  pipes : t'.pipes = t.pipes

section
variable {t t' t'' : Holdings} {ds es : List Descriptor}

theorem Gains.refl (t : Holdings) : Gains t t [] where
  kept _ _ h := h
  free _ h := nomatch h
  held _ h := nomatch h
  nodup := List.nodup_nil
  noEnds _ _ h := .inl h
  pipes := rfl

theorem Gains.leadsTo? (hg : Gains t t' ds) {d : Descriptor} {c : Channel}
    (hd : t.leadsTo? d = some c) : t'.leadsTo? d = some c := by
  obtain ⟨o, ho, rfl⟩ := leadsTo?_eq_some_iff.mp hd
  exact leadsTo?_eq_some_iff.mpr ⟨o, hg.kept d o ho, rfl⟩

theorem Gains.trans (h : Gains t t' ds) (h' : Gains t' t'' es) : Gains t t'' (ds ++ es) where
  kept d o hd := h'.kept d o (h.kept d o hd)
  free d hd := by
    rcases List.mem_append.mp hd with hd | hd
    · exact h.free d hd
    · refine Option.eq_none_iff_forall_ne_some.mpr fun o ho => ?_
      cases (h'.free d hd).symm.trans (h.kept d o ho)
  held d hd := by
    rcases List.mem_append.mp hd with hd | hd
    · obtain ⟨c, hc⟩ := Option.isSome_iff_exists.mp (h.held d hd)
      exact Option.isSome_iff_exists.mpr ⟨c, h'.leadsTo? hc⟩
    · exact h'.held d hd
  nodup := by
    refine List.nodup_append'.mpr ⟨h.nodup, h'.nodup, fun d hd hd' => ?_⟩
    obtain ⟨c, hc⟩ := Option.isSome_iff_exists.mp (h.held d hd)
    obtain ⟨o, ho, -⟩ := leadsTo?_eq_some_iff.mp hc
    rw [h'.free d hd'] at ho
    cases ho
  noEnds d c hd := by
    rcases h'.noEnds d c hd with hd | hc
    · exact h.noEnds d c hd
    · exact .inr hc
  pipes := h'.pipes.trans h.pipes

/-- To open something that is no pipe is to gain it. -/
theorem gains_gain {d : Descriptor} (hd : t.get? d = none) {c : Channel}
    (hc : c.isPipeEnd = false) : Gains t (t.gain d c) [d] ∧ (t.gain d c).leadsTo? d = some c := by
  have hget (e : Descriptor) := t.get?_gain d e c
  have hleads : (t.gain d c).leadsTo? d = some c :=
    leadsTo?_eq_some_iff.mpr ⟨⟨c, true⟩, (hget d).trans (if_pos rfl), rfl⟩
  refine ⟨?_, hleads⟩
  constructor
  case kept =>
    intro e o he
    have hne : e ≠ d := by
      rintro rfl
      cases hd.symm.trans he
    rw [hget, if_neg hne, he]
  case free =>
    intro e he
    rw [List.mem_singleton.mp he, hd]
  case held =>
    intro e he
    rw [List.mem_singleton.mp he, hleads]
    rfl
  case nodup => exact List.nodup_singleton d
  case noEnds =>
    intro e c' he
    by_cases hne : e = d
    · subst hne
      cases hleads.symm.trans he
      exact .inr hc
    · obtain ⟨o, ho, hl⟩ := leadsTo?_eq_some_iff.mp he
      rw [hget, if_neg hne] at ho
      exact .inl (leadsTo?_eq_some_iff.mpr ⟨o, ho, hl⟩)
  case pipes => rfl

theorem leads_gain {d : Descriptor} (hd : t.get? d = none) {c : Channel}
    (hc : c.isPipeEnd = false) :
    Gains t (t.gain d c) [d] ∧ (t.gain d c).Leads (some d) (some c) :=
  ⟨(gains_gain hd hc).1, leads_some_iff.mpr ⟨c, rfl, (gains_gain hd hc).2⟩⟩

end

section
variable {σ : Type} {h : Host σ} {env : Environment} {cwd : String} {t : Holdings}
  {calls : List Call}

theorem OpensStdin.requested_eq {plan : StdinPlan}
    {result : Except LaunchFault (Option Descriptor)} (ho : OpensStdin cwd plan calls result) :
    requested calls = (plan.opens? cwd).toList := by
  cases ho <;> rfl

theorem OpensStdout.requested_eq {plan : StdoutPlan}
    {result : Except LaunchFault (Option Descriptor)} (ho : OpensStdout cwd plan calls result) :
    requested calls = (plan.opens? cwd).toList := by
  cases ho <;> rfl

theorem OpensStdin.gains {plan : StdinPlan} {source : Option Descriptor}
    (ho : OpensStdin cwd plan calls (.ok source)) (hf : t.Fits calls) :
    Gains t (t.afterAll calls) source.toList ∧
      (t.afterAll calls).Leads source (plan.opens? cwd) := by
  cases ho with
  | inherit => exact ⟨.refl t, leads_none_iff.mpr rfl⟩
  | pipe => exact ⟨.refl t, leads_none_iff.mpr rfl⟩
  | file path d => exact leads_gain ((t.fits_cons.mp hf).1.2 d List.mem_cons_self) rfl
  | text text d => exact leads_gain ((t.fits_cons.mp hf).1.2 d List.mem_cons_self) rfl

theorem OpensStdout.gains {plan : StdoutPlan} {target : Option Descriptor}
    (ho : OpensStdout cwd plan calls (.ok target)) (hf : t.Fits calls) :
    Gains t (t.afterAll calls) target.toList ∧
      (t.afterAll calls).Leads target (plan.opens? cwd) := by
  cases ho with
  | inherit => exact ⟨.refl t, leads_none_iff.mpr rfl⟩
  | pipe => exact ⟨.refl t, leads_none_iff.mpr rfl⟩
  | file target d => exact leads_gain ((t.fits_cons.mp hf).1.2 d List.mem_cons_self) rfl

theorem requested_closes (ds : List Descriptor) : requested (closes ds) = [] := by
  simp [requested, closes, Call.requested?]

/-- Of what is planned for a stage nothing is opened out of turn. -/
theorem Prepares.requested_prefix {stage : Stage} {plan : StagePlan}
    {result : Except LaunchFault Prepared} (hp : Prepares h env cwd stage plan calls result) :
    requested calls <+: plan.opens cwd := by
  cases hp with
  | noStdin hi =>
    rw [hi.requested_eq]
    exact List.prefix_append _ _
  | noStdout hi ho =>
    simp only [requested_append, requested_closes, hi.requested_eq, ho.requested_eq, List.append_nil]
    exact List.prefix_rfl
  | noImage hi ho =>
    simp only [requested_append, requested_closes, hi.requested_eq, ho.requested_eq, List.append_nil]
    exact List.prefix_rfl
  | ready hi ho =>
    rw [requested_append, hi.requested_eq, ho.requested_eq]
    exact List.prefix_rfl

theorem Prepares.requested_eq {stage : Stage} {plan : StagePlan} {p : Prepared}
    (hp : Prepares h env cwd stage plan calls (.ok p)) : requested calls = plan.opens cwd := by
  cases hp with
  | ready hi ho =>
    rw [requested_append, hi.requested_eq, ho.requested_eq]
    rfl

/-- The files of a stage that has been made ready lead to what was planned. -/
def Agrees (cwd : String) (t : Holdings) (plan : StagePlan) (p : Prepared) : Prop :=
  t.Leads p.stdin (plan.stdin.opens? cwd) ∧ t.Leads p.stdout (plan.stdout.opens? cwd)

theorem Gains.agrees {t' : Holdings} {ds : List Descriptor} (hg : Gains t t' ds)
    {plan : StagePlan} {p : Prepared} (ha : Agrees cwd t plan p) : Agrees cwd t' plan p :=
  ⟨ha.1.kept fun d o _ hd => hg.kept d o hd, ha.2.kept fun d o _ hd => hg.kept d o hd⟩

theorem Prepares.gains {stage : Stage} {plan : StagePlan} {p : Prepared}
    (hp : Prepares h env cwd stage plan calls (.ok p)) (hf : t.Fits calls) :
    Gains t (t.afterAll calls) p.descriptors ∧ Agrees cwd (t.afterAll calls) plan p := by
  cases hp with
  | ready hi ho =>
    obtain ⟨hfi, hfo⟩ := t.fits_append.mp hf
    obtain ⟨hgi, hli⟩ := hi.gains hfi
    obtain ⟨hgo, hlo⟩ := ho.gains hfo
    rw [afterAll_append]
    exact ⟨hgi.trans hgo, hli.kept fun d o _ hd => hgo.kept d o hd, hlo⟩

/-- Nothing is opened that is not planned, and nothing out of turn. -/
theorem PreparesAll.requested_prefix {stages : List (Stage × StagePlan)}
    {result : Except LaunchFault (List Prepared)} (hp : PreparesAll h env cwd stages calls result) :
    requested calls <+: stages.flatMap (fun sp => sp.2.opens cwd) := by
  induction hp with
  | nil => exact List.prefix_rfl
  | fault hp => exact hp.requested_prefix.trans (List.prefix_append _ _)
  | abandoned hp _ ih =>
    rw [requested_append, requested_append, requested_closes, hp.requested_eq, List.append_nil,
      List.flatMap_cons]
    exact (List.prefix_append_right_inj _).mpr ih
  | cons hp _ ih =>
    rw [requested_append, hp.requested_eq, List.flatMap_cons]
    exact (List.prefix_append_right_inj _).mpr ih

theorem PreparesAll.requested_eq {stages : List (Stage × StagePlan)} {ps : List Prepared}
    (hp : PreparesAll h env cwd stages calls (.ok ps)) :
    requested calls = stages.flatMap (fun sp => sp.2.opens cwd) := by
  generalize hr : Except.ok ps = result at hp
  induction hp generalizing ps with
  | nil => rfl
  | fault => cases hr
  | abandoned => cases hr
  | cons hp _ ih => rw [requested_append, hp.requested_eq, List.flatMap_cons, ih rfl]

/-- All stages that are made ready agree with the plan. -/
theorem PreparesAll.gains {stages : List (Stage × StagePlan)} {ps : List Prepared}
    (hp : PreparesAll h env cwd stages calls (.ok ps)) (hf : t.Fits calls) :
    Gains t (t.afterAll calls) (ps.flatMap Prepared.descriptors) ∧
      List.Forall₂ (fun sp p => Agrees cwd (t.afterAll calls) sp.2 p) stages ps := by
  generalize hr : Except.ok ps = result at hp
  induction hp generalizing t ps with
  | nil =>
    cases hr
    exact ⟨.refl t, .nil⟩
  | fault => cases hr
  | abandoned => cases hr
  | cons hp _ ih =>
    cases hr
    obtain ⟨hfp, hfr⟩ := t.fits_append.mp hf
    obtain ⟨hg, ha⟩ := hp.gains hfp
    obtain ⟨hgr, har⟩ := ih hfr rfl
    rw [afterAll_append]
    exact ⟨hg.trans hgr, .cons (hgr.agrees ha) har⟩

/-- The stages that were made ready are provided for. -/
theorem PreparesAll.provided {stages : List (Stage × StagePlan)} {ps : List Prepared}
    (hp : PreparesAll h env cwd stages calls (.ok ps)) (hf : t.Fits calls) {c₀ c₁ : Channel}
    (ht : AtRest t c₀ c₁) : Provided (t.afterAll calls) ps where
  pipes := (hp.gains hf).1.pipes.trans ht.pipes
  noEnds d c hd := by
    rcases (hp.gains hf).1.noEnds d c hd with hd | hc
    · exact ht.noEnds d c hd
    · exact hc
  given := (hp.gains hf).1.held
  nodup := (hp.gains hf).1.nodup

/-! ### The start -/

theorem Pipes.pipes_eq {rest : List Prepared} {pipe : Option (Descriptor × Descriptor)}
    (hp : Pipes rest calls pipe) : (t.afterAll calls).pipes = t.pipes + min rest.length 1 := by
  cases hp with
  | last => rfl
  | next q rest r w =>
    rw [List.length_cons, Nat.min_eq_right (by omega)]
    rfl

/-- A start without a fault starts every stage and makes a pipe between any two neighbours. -/
theorem Starts.complete {stages : List Prepared} {previous : Option Descriptor} {started : Started}
    (hs : Starts env stages previous calls started) (hf : started.fault = none) :
    (t.forks calls).length = stages.length ∧
      (t.afterAll calls).pipes = t.pipes + (stages.length - 1) := by
  induction hs generalizing t with
  | done =>
    rw [(idle_closes _).forks_eq]
    exact ⟨rfl, pipes_closes t _⟩
  | noPipe => cases hf
  | noFork => cases hf
  | @forked p rest previous piped pipe calls started pid hp _ ih =>
    obtain ⟨hlen, hpipes⟩ :=
      ih (t := (t.afterAll piped).afterAll (closes (handedOver p previous pipe))) hf
    constructor
    · rw [hp.forks_forked, List.length_cons, hlen, List.length_cons]
    · rw [afterAll_forked, hpipes, pipes_closes, hp.pipes_eq, List.length_cons]
      omega

theorem Starts.requested_eq {stages : List Prepared} {previous : Option Descriptor}
    {started : Started} (hs : Starts env stages previous calls started) : requested calls = [] := by
  induction hs with
  | done => exact requested_closes _
  | noPipe => exact requested_closes _
  | noFork e hp =>
    rw [requested_append]
    cases hp <;> exact requested_closes _
  | @forked p rest previous piped pipe calls started pid hp _ ih =>
    have hn : requested (closes (handedOver p previous pipe) ++ calls) = [] := by
      rw [requested_append, requested_closes, ih, List.append_nil]
    rw [requested_append]
    cases hp <;> exact hn

/-- To wait opens nothing and starts nothing. -/
theorem Awaits.still {pids : List Pid} {status : Nat} {result : Except Fault Nat}
    (ha : Awaits pids status calls result) (t : Holdings) :
    requested calls = [] ∧ t.forks calls = [] ∧ t.afterAll calls = t := by
  induction ha with
  | done => exact ⟨rfl, rfl, rfl⟩
  | fault => exact ⟨rfl, rfl, rfl⟩
  | next _ _ _ _ ih => exact ih

/-! ### The plan is followed -/

theorem exists_of_forall₂ {α β : Type} {R : α → β → Prop} {as : List α} {bs : List β}
    (hr : List.Forall₂ R as bs) {i : Nat} {b : β} (hb : bs[i]? = some b) :
    ∃ a, as[i]? = some a ∧ R a b := by
  obtain ⟨hi, rfl⟩ := List.getElem?_eq_some_iff.mp hb
  have ha : i < as.length := hr.length_eq ▸ hi
  exact ⟨as[i], List.getElem?_eq_getElem ha, hr.get ha hi⟩

theorem notMem_waiting_take {ps : List Prepared} (hn : (ps.flatMap Prepared.descriptors).Nodup)
    {i : Nat} {p : Prepared} (hp : ps[i]? = some p) {d : Descriptor} (hd : d ∈ p.descriptors) :
    d ∉ waiting none (ps.take i) := by
  obtain ⟨hi, rfl⟩ := List.getElem?_eq_some_iff.mp hp
  rw [← List.take_append_drop i ps, List.drop_eq_getElem_cons hi, List.flatMap_append,
    List.flatMap_cons, List.nodup_append'] at hn
  exact fun hm => hn.2.2 hm (List.mem_append_left _ hd)

/-- Whether a stage starts with what is planned for it to read and write: the pipe before it and the
one behind it, except at the ends. -/
structure FollowsPlan (cwd : String) (f : Fork) (s : Stage) (index count : Nat) : Prop where
  first : (s.plan index count).stdin ≠ .pipe ↔ index = 0
  last : (s.plan index count).stdout ≠ .pipe ↔ index + 1 = count
  stdin : f.held.Leads f.child.stdin ((s.plan index count).stdin.channel? cwd index)
  stdout : f.held.Leads f.child.stdout ((s.plan index count).stdout.channel? cwd index)

theorem Starting.followsPlan {f : Fork} {i count : Nat} {p : Prepared} {s : Stage}
    (hs : Starting f i count p) (hi : i < count) (ha : Agrees cwd f.held (s.plan i count) p) :
    FollowsPlan cwd f s i count := by
  obtain ⟨previous, pipe, hc, hj⟩ := hs
  have hin : f.child.stdin = (previous <|> p.stdin) := congrArg Child.stdin hc
  have hout : f.child.stdout = (pipe.map (·.2) <|> p.stdout) := congrArg Child.stdout hc
  constructor
  case first => exact s.plan_stdin_ne_pipe_iff i count
  case last => exact s.plan_stdout_ne_pipe_iff i count
  case stdin =>
    have hr := hj.reads
    by_cases h0 : i = 0
    · rw [if_pos h0, leads_to_none_iff] at hr
      have hp : (s.plan i count).stdin.channel? cwd i = (s.plan i count).stdin.opens? cwd := by
        rcases hs : s.input with - | (path | text) <;>
          simp [Stage.plan, h0, hs, StdinPlan.channel?, StdinPlan.opens?]
      rw [hin, hr, hp]
      exact ha.1
    · rw [if_neg h0] at hr
      obtain ⟨d, rfl, hd⟩ := hr.exists_eq
      have hp : (s.plan i count).stdin.channel? cwd i = some (.reader (i - 1)) := by
        simp [Stage.plan, h0, StdinPlan.channel?]
      rw [hin, hp]
      exact hr
  case stdout =>
    have hw := hj.writer
    by_cases hlt : i + 1 < count
    · rw [if_pos hlt] at hw
      obtain ⟨d, hd, -⟩ := hw.exists_eq
      have hne : i + 1 ≠ count := by omega
      have hp : (s.plan i count).stdout.channel? cwd i = some (.writer i) := by
        simp [Stage.plan, hne, StdoutPlan.channel?]
      rw [hd] at hw hout
      rw [hout, hp]
      exact hw
    · rw [if_neg hlt, leads_to_none_iff] at hw
      have hlast : i + 1 = count := by omega
      have hp : (s.plan i count).stdout.channel? cwd i = (s.plan i count).stdout.opens? cwd := by
        rcases ho : s.output with - | target <;>
          simp [Stage.plan, hlast, ho, StdoutPlan.channel?, StdoutPlan.opens?]
      rw [hout, hw, hp]
      exact ha.2

/-- What a stage writes is its own file or an end of a pipe. -/
theorem Starting.stdout_ne {f : Fork} {i count : Nat} {p : Prepared} (hs : Starting f i count p)
    {d : Descriptor} {c : Channel} (hd : f.held.leadsTo? d = some c) (hc : c.isPipeEnd = false)
    (hn : d ∉ p.descriptors) : f.child.stdout ≠ some d := by
  obtain ⟨previous, pipe, hchild, hj⟩ := hs
  have hout : f.child.stdout = (pipe.map (·.2) <|> p.stdout) := congrArg Child.stdout hchild
  rw [hout]
  intro he
  cases hw : pipe.map (·.2) with
  | some d' =>
    obtain rfl : d' = d := by simpa [hw] using he
    have hlead := (hw ▸ hj.writer).eq_some hd
    split_ifs at hlead
    rw [← Option.some.inj hlead] at hc
    cases hc
  | none =>
    have he : p.stdout = some d := by simpa [hw] using he
    exact hn (by simp [Prepared.descriptors, he])

/-- Whether the process of a stage becomes another program that reads and writes what is planned,
or what the shell reads and writes. -/
def Becomes (cwd : String) (f : Fork) (s : Stage) (index count : Nat) (c₀ c₁ : Channel) : Prop :=
  ∃ T, f.child.wire f.held.files = some T ∧
    T.atExec.leadsTo? 0 = some (((s.plan index count).stdin.channel? cwd index).getD c₀) ∧
    T.atExec.leadsTo? 1 = some (((s.plan index count).stdout.channel? cwd index).getD c₁)

/-- The process that is started at an index is that of the stage there, made ready as planned. -/
theorem Starts.exists_stage {p : Pipeline} {ps : List Prepared} {more : List Call}
    {started : Started} (hp : PreparesAll h env cwd p.planned calls (.ok ps))
    (hs : Starts env ps none more started) (hf : t.Fits (calls ++ more)) {c₀ c₁ : Channel}
    (ht : AtRest t c₀ c₁) {i : Nat} {f : Fork}
    (hi : ((t.afterAll calls).forks more)[i]? = some f) :
    ∃ s q, p.stages[i]? = some s ∧ ps[i]? = some q ∧ Starting f i p.stages.length q ∧
      Agrees cwd (t.afterAll calls) (s.plan i p.stages.length) q ∧
      ∀ d o, (t.afterAll calls).get? d = some o → d ∉ waiting none (ps.take i) →
        f.held.get? d = some o := by
  obtain ⟨hfc, hfm⟩ := t.fits_append.mp hf
  obtain ⟨-, har⟩ := hp.gains hfc
  obtain ⟨q, hq, hst, hk⟩ := hs.starting (hp.provided hfc ht).ready hfm hi
  obtain ⟨⟨s, plan⟩, hsp, ha⟩ := exists_of_forall₂ har hq
  have hlen : ps.length = p.stages.length := by
    rw [← har.length_eq, Pipeline.planned, List.length_mapIdx]
  rw [Nat.zero_add, Nat.zero_add, hlen] at hst
  rw [Pipeline.planned, List.getElem?_mapIdx] at hsp
  obtain ⟨s', hs', hpl⟩ := Option.map_eq_some_iff.mp hsp
  obtain ⟨rfl, rfl⟩ := Prod.mk.inj hpl
  exact ⟨s', q, hs', hq, hst, ha, hk⟩

/-- Every process that is started is a stage with what is planned for it. -/
theorem Starts.followsPlan {p : Pipeline} {ps : List Prepared} {more : List Call}
    {started : Started} (hp : PreparesAll h env cwd p.planned calls (.ok ps))
    (hs : Starts env ps none more started) (hf : t.Fits (calls ++ more)) {c₀ c₁ : Channel}
    (ht : AtRest t c₀ c₁) {i : Nat} {f : Fork}
    (hi : ((t.afterAll calls).forks more)[i]? = some f) :
    ∃ s, p.stages[i]? = some s ∧ FollowsPlan cwd f s i p.stages.length ∧
      Becomes cwd f s i p.stages.length c₀ c₁ := by
  obtain ⟨s, q, hstage, hq, hst, ha, hk⟩ := hs.exists_stage hp hf ht hi
  obtain ⟨hg, -⟩ := hp.gains (t.fits_append.mp hf).1
  have hown {d : Descriptor} {o : Opened Channel} (hd : d ∈ q.descriptors)
      (ho : (t.afterAll calls).get? d = some o) : f.held.get? d = some o :=
    hk d o ho (notMem_waiting_take hg.nodup hq hd)
  have ha : Agrees cwd f.held (s.plan i p.stages.length) q :=
    ⟨ha.1.kept fun d o hd ho => hown (by simp [Prepared.descriptors, hd]) ho,
      ha.2.kept fun d o hd ho => hown (by simp [Prepared.descriptors, hd]) ho⟩
  have hfollows := hst.followsPlan (List.getElem?_eq_some_iff.mp hstage).1 ha
  have hnew {d : Descriptor} (hd : d ∈ ps.flatMap Prepared.descriptors) {o : Opened Channel} :
      t.get? d ≠ some o := by
    rw [hg.free d hd]
    nofun
  have hstands {d : Descriptor} {o : Opened Channel} (hd : t.get? d = some o) :
      f.held.get? d = some o := by
    refine hk d o (hg.kept d o hd) fun hm => ?_
    obtain ⟨q', hq', hd'⟩ := List.mem_flatMap.mp hm
    exact hnew (List.mem_flatMap.mpr ⟨q', List.mem_of_mem_take hq', hd'⟩) hd
  have hne : f.child.stdout ≠ some 0 := by
    refine hst.stdout_ne (leadsTo?_eq_some_iff.mpr ⟨_, hstands ht.stdin, rfl⟩) ?_ fun hm => ?_
    · exact ht.noEnds 0 c₀ (leadsTo?_eq_some_iff.mpr ⟨_, ht.stdin, rfl⟩)
    · exact hnew (List.mem_flatMap.mpr ⟨q, List.mem_of_getElem? hq, hm⟩) ht.stdin
  exact ⟨s, hstage, hfollows,
    Child.exists_wire (hstands ht.stdin) (hstands ht.stdout) hfollows.stdin hfollows.stdout hne⟩

end

end Launch

namespace Pipeline

open Launch Holdings

/-- How the calls of a pipeline follow its plan. -/
structure FollowsPlan (p : Pipeline) (cwd : String) (t : Holdings) (c₀ c₁ : Channel)
    (calls : List Call) (result : Except LaunchFault Launched) : Prop where
  /-- Nothing is opened but what the first stage is told to read and the last one to write. -/
  opened : requested calls <+: p.openings cwd
  /-- If the stages can be made ready all of that is opened. -/
  allOpened : (∀ f, result = .error f → isEarly f = false) → requested calls = p.openings cwd
  /-- If they can be started, too, each is, with a pipe between any two neighbours. -/
  pipes : (∀ f, result = .error f → isEarly f = false ∧ isMidway f = false) →
    (t.afterAll calls).pipes = p.stages.length - 1 ∧ (t.forks calls).length = p.stages.length
  /-- Every stage that is started is given what is planned for it, and runs with it. -/
  stages : ∀ i f, (t.forks calls)[i]? = some f → ∃ s, p.stages[i]? = some s ∧
    Launch.FollowsPlan cwd f s i p.stages.length ∧ Becomes cwd f s i p.stages.length c₀ c₁

section
variable {σ : Type} {h : Host σ} {p : Pipeline} {env : Environment} {cwd cmdline : String}
  {jobs jobs' : JobTable} {calls : List Call} {result : Except LaunchFault Launched}

/-- What the preparation and the start of a pipeline do. -/
theorem followsPlan_of_starts {ps : List Prepared} {more : List Call} {started : Started}
    (hp : PreparesAll h env cwd p.planned calls (.ok ps)) (hs : Starts env ps none more started)
    {t : Holdings} (hf : t.Fits (calls ++ more)) {c₀ c₁ : Channel} (ht : AtRest t c₀ c₁)
    (hc : started.fault = none ∨ ∃ f, result = .error f ∧ isMidway f = true) :
    p.FollowsPlan cwd t c₀ c₁ (calls ++ more) result := by
  have hforks : t.forks (calls ++ more) = (t.afterAll calls).forks more := by
    rw [forks_append, (hp.idle.forks_eq t), List.nil_append]
  have hreq : requested (calls ++ more) = p.openings cwd := by
    rw [requested_append, hs.requested_eq, List.append_nil, hp.requested_eq, flatMap_planned]
  constructor
  case opened => exact hreq ▸ List.prefix_rfl
  case allOpened => exact fun _ => hreq
  case pipes =>
    intro hr
    rcases hc with hc | ⟨f, hf, hm⟩
    · obtain ⟨hlen, hpipes⟩ := hs.complete (t := t.afterAll calls) hc
      obtain ⟨hg, har⟩ := hp.gains (t.fits_append.mp hf).1
      have hps : ps.length = p.stages.length := by
        rw [← har.length_eq, planned, List.length_mapIdx]
      rw [hforks, afterAll_append, hlen, hpipes, hg.pipes, ht.pipes, hps, Nat.zero_add]
      exact ⟨rfl, rfl⟩
    · rw [(hr f hf).2] at hm
      cases hm
  case stages =>
    intro i f hi
    exact hs.followsPlan hp hf ht (hforks ▸ hi)

theorem Executes.followsPlan (he : Executes h p env cwd cmdline jobs calls result jobs')
    {t : Holdings} (hf : t.Fits calls) {c₀ c₁ : Channel} (ht : AtRest t c₀ c₁) :
    p.FollowsPlan cwd t c₀ c₁ calls result := by
  cases he with
  | @unready calls f hp =>
    have hearly := hp.isEarly
    refine ⟨flatMap_planned p cwd ▸ hp.requested_prefix, fun hr => ?_, fun hr => ?_, ?_⟩
    · rw [hr f rfl] at hearly
      cases hearly
    · rw [(hr f rfl).1] at hearly
      cases hearly
    · intro i f hi
      rw [hp.idle.forks_eq] at hi
      cases hi
  | unstarted hp hs =>
    exact followsPlan_of_starts hp hs hf ht (.inr ⟨_, rfl, hs.isMidway rfl⟩)
  | background _ hp hs => exact followsPlan_of_starts hp hs hf ht (.inl rfl)
  | @foreground calls stages more pids waits result hb hp hs ha =>
    have hstart : p.FollowsPlan cwd t c₀ c₁ (calls ++ more)
        ((result.map .foreground).mapError .wait) :=
      followsPlan_of_starts hp hs (t.fits_append.mp hf).1 ht (.inl rfl)
    obtain ⟨hreq, hforks, hafter⟩ := ha.still (t.afterAll (calls ++ more))
    have hr : requested (calls ++ more ++ waits) = requested (calls ++ more) := by
      rw [requested_append, hreq, List.append_nil]
    have hfs : t.forks (calls ++ more ++ waits) = t.forks (calls ++ more) := by
      rw [forks_append, hforks, List.append_nil]
    have haf : t.afterAll (calls ++ more ++ waits) = t.afterAll (calls ++ more) := by
      rw [afterAll_append, hafter]
    exact ⟨hr ▸ hstart.opened, fun he => hr ▸ hstart.allOpened he,
      fun he => by rw [haf, hfs]; exact hstart.pipes he, fun i f hi => hstart.stages i f (hfs ▸ hi)⟩

end

/-- A pipeline that is run in a shell whose standard input and output are open follows its plan,
whatever the system answers. -/
theorem execute_follows_plan {σ : Type} (h : Host σ) (p : Pipeline) (env : Environment)
    (cwd cmdline : String) (jobs : JobTable) (s : σ) (t : Holdings) (c₀ c₁ : Channel)
    (ht : AtRest t c₀ c₁) (hf : t.Fits (p.execute h.recorded env cwd cmdline jobs ⟨s, []⟩).2.log) :
    p.FollowsPlan cwd t c₀ c₁ (p.execute h.recorded env cwd cmdline jobs ⟨s, []⟩).2.log
      (p.execute h.recorded env cwd cmdline jobs ⟨s, []⟩).1.1 := by
  obtain ⟨calls, he, hr⟩ := execute_recorded []
    (rfl : p.execute h env cwd cmdline jobs s = ((_, _), _))
  rw [hr, List.nil_append] at hf ⊢
  exact he.followsPlan hf ht

open Machine (Desk) in
/-- Three stages, of which the first reads a text. What the second is told to read and to write is
not opened. -/
theorem execute_follows_plan_text :
    let d := Desk.onDisk .empty Machine.Disk.root true (some .empty)
    let p : Pipeline :=
      ⟨[⟨"", [], some (.hereDoc "x"), none⟩, ⟨"", [], some (.file "a"), some ⟨"b", false⟩⟩,
        ⟨"", [], none, none⟩], false⟩
    let log := (p.execute Desk.host.recorded {} "/" "" {} ⟨d, []⟩).2.log
    let result := (p.execute Desk.host.recorded {} "/" "" {} ⟨d, []⟩).1.1
    AtRest standing (.standing 0) (.standing 1) ∧ standing.Fits log ∧
      result = .ok (.foreground 127) ∧ requested log = [.text "x"] ∧
      p.FollowsPlan "/" standing (.standing 0) (.standing 1) log result := by
  intro d p log result
  have ht : AtRest standing (.standing 0) (.standing 1) :=
    { toUnpiped := unpiped_of_entries rfl (by decide), stdin := by decide, stdout := by decide }
  have hf : standing.Fits log := by decide +kernel
  exact ⟨ht, hf, by decide +kernel, by decide +kernel,
    execute_follows_plan Desk.host p {} "/" "" {} d standing _ _ ht hf⟩

end Pipeline

end AssistedShell
