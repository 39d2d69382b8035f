import AssistedShell.Machine.Kernel
import AssistedShell.Proofs.Pipeline.Handover

/-! What the shell had open for the stages of a pipeline is closed when it has
started them, or has failed to: each file and each end of a pipe once. The end of
a pipe that a stage writes is held by nobody else. -/

namespace AssistedShell.Launch

open Holdings

/-! ### Closing -/

section
variable (t : Holdings) (ds : List Descriptor)

theorem exists_of_mem_steps_closes {x : Holdings × Call} (hx : x ∈ t.steps (closes ds)) :
    ∃ d, x.2 = .close d := by
  induction ds generalizing t with
  | nil => cases hx
  | cons d ds ih =>
    rcases List.mem_cons.mp hx with rfl | hx
    · exact ⟨d, rfl⟩
    · exact ih (t.drop d) hx

theorem pipings_closes : t.pipings (closes ds) = [] := by
  refine List.filterMap_eq_nil_iff.mpr ?_
  rintro ⟨t', c⟩ hx
  obtain ⟨d, rfl⟩ := exists_of_mem_steps_closes t ds hx
  rfl

theorem pipeEnds_closes : t.pipeEnds (closes ds) = [] := by
  refine List.flatMap_eq_nil_iff.mpr ?_
  rintro ⟨t', c⟩ hx
  obtain ⟨d, rfl⟩ := exists_of_mem_steps_closes t ds hx
  rfl

theorem closings_closes (hd : ds.Nodup) : t.closings (closes ds) = ds.map t.leadsTo? := by
  induction ds generalizing t with
  | nil => rfl
  | cons d ds ih =>
    obtain ⟨hn, hds⟩ := List.nodup_cons.mp hd
    have hc : t.closings (closes (d :: ds)) = t.leadsTo? d :: (t.drop d).closings (closes ds) := rfl
    rw [hc, ih _ hds, List.map_cons]
    congr 1
    refine List.map_congr_left fun e he => ?_
    have hne : e ≠ d := fun h => hn (h ▸ he)
    exact congrArg (Option.map _) ((t.get?_drop d e).trans (if_neg hne))

end

/-! ### What is closed -/

section
variable {t : Holdings} {n : Nat} {previous : Option Descriptor} {p : Prepared}
  {rest : List Prepared} {piped : List Call} {pipe : Option (Descriptor × Descriptor)}

theorem Ready.exists_get? {stages : List Prepared} (hr : Ready t n previous stages) {d : Descriptor}
    (hd : d ∈ waiting previous stages) : ∃ o, t.get? d = some o := by
  rcases List.mem_append.mp hd with hd | hd
  · obtain rfl := Option.mem_toList.mp hd
    obtain ⟨c, -, hc⟩ := leads_some_iff.mp hr.reads
    obtain ⟨o, ho, -⟩ := leadsTo?_eq_some_iff.mp hc
    exact ⟨o, ho⟩
  · obtain ⟨c, hc, -⟩ := hr.own d hd
    obtain ⟨o, ho, -⟩ := leadsTo?_eq_some_iff.mp hc
    exact ⟨o, ho⟩

theorem Ready.nodup_waiting {stages : List Prepared} (hr : Ready t n previous stages) :
    (waiting previous stages).Nodup := by
  refine List.nodup_append'.mpr ⟨previous.toList_nodup, hr.nodup, fun d hp hd => ?_⟩
  obtain rfl := Option.mem_toList.mp hp
  obtain ⟨c, hi, hc⟩ := leads_some_iff.mp hr.reads
  obtain ⟨c', hc', hn⟩ := hr.own d hd
  cases hc.symm.trans hc'
  split_ifs at hi
  rw [Option.some.inj hi.symm] at hn
  cases hn

theorem Pipes.nodup_endsOf (hp : Pipes rest piped pipe) (hf : t.Fits piped) :
    (endsOf pipe).Nodup := by
  cases hp with
  | last => exact List.nodup_nil
  | next q rest r w => exact (t.fits_cons.mp hf).1.1

/-- What is handed over now and what waits for the later stages is what waited and the pipe. -/
theorem handedOver_append_perm (p : Prepared) (rest : List Prepared) (previous : Option Descriptor)
    (pipe : Option (Descriptor × Descriptor)) :
    (handedOver p previous pipe ++ waiting (pipe.map (·.1)) rest).Perm
      (endsOf pipe ++ waiting previous (p :: rest)) := by
  rw [List.perm_iff_count]
  intro d
  simp only [handedOver, waiting, endsOf, List.flatMap_cons, List.count_append]
  omega

theorem Ready.nodup_open (hr : Ready t n previous (p :: rest)) (hp : Pipes rest piped pipe)
    (hf : t.Fits piped) : (endsOf pipe ++ waiting previous (p :: rest)).Nodup := by
  refine List.nodup_append'.mpr ⟨hp.nodup_endsOf hf, hr.nodup_waiting, fun d hd hw => ?_⟩
  obtain ⟨o, ho⟩ := hr.exists_get? hw
  rcases hp.get? hf d with ⟨-, hn⟩ | ⟨hn, -⟩
  · rw [ho] at hn
    cases hn
  · exact hn hd

theorem Pipes.map_endsOf (hp : Pipes rest piped pipe) (hf : t.Fits piped) :
    (endsOf pipe).map (t.afterAll piped).leadsTo? = (t.pipeEnds piped).map some := by
  cases hp with
  | last => rfl
  | next q rest r w =>
    have hr := leadsTo?_eq_some_iff.mpr ⟨_, (get?_makePipe hf).1, rfl⟩
    have hw := leadsTo?_eq_some_iff.mpr ⟨_, (get?_makePipe hf).2, rfl⟩
    exact congrArg₂ (fun a b => [a, b]) hr hw

/-- The ends of a pipe were free before. -/
theorem Pipes.get?_without_ends (hp : Pipes rest piped pipe) (hf : t.Fits piped) (d : Descriptor)
    (ds : List Descriptor) :
    (if d ∈ endsOf pipe ++ ds then none else (t.afterAll piped).get? d) =
      if d ∈ ds then none else t.get? d := by
  rcases hp.get? hf d with ⟨he, hn⟩ | ⟨he, hn⟩
  · rw [if_pos (List.mem_append_left _ he), hn, ite_self]
  · simp [he, hn]

/-- When a stage starts what waits for it and the later ones leads to where it led before. -/
theorem Ready.map_open (hr : Ready t n previous (p :: rest)) (hp : Pipes rest piped pipe)
    (hf : t.Fits piped) :
    (endsOf pipe ++ waiting previous (p :: rest)).map (t.afterAll piped).leadsTo? =
      (t.pipeEnds piped).map some ++ (waiting previous (p :: rest)).map t.leadsTo? := by
  rw [List.map_append, hp.map_endsOf hf]
  refine congrArg _ (List.map_congr_left fun d hd => ?_)
  obtain ⟨o, ho⟩ := hr.exists_get? hd
  exact congrArg (Option.map _) ((hp.kept hf ho).trans ho.symm)

end

section
variable {t : Holdings} {env : Environment} {n : Nat} {previous : Option Descriptor}
  {stages : List Prepared} {calls : List Call} {started : Started}

theorem Pipes.closings_eq {rest : List Prepared} {piped : List Call}
    {pipe : Option (Descriptor × Descriptor)} (hp : Pipes rest piped pipe) :
    t.closings piped = [] := by
  cases hp <;> rfl

theorem closings_spawn {child : Child} {answer : Except Fault Pid} :
    t.closings (.spawn env child answer :: calls) = t.closings calls := rfl

theorem pipeEnds_spawn {child : Child} {answer : Except Fault Pid} :
    t.pipeEnds (.spawn env child answer :: calls) = t.pipeEnds calls := rfl

/-- What is closed is what waited for the stages and the ends of the pipes that were made. -/
theorem Starts.closings_perm (hs : Starts env stages previous calls started)
    (hr : Ready t n previous stages) (hf : t.Fits calls) :
    (t.closings calls).Perm
      ((waiting previous stages).map t.leadsTo? ++ (t.pipeEnds calls).map some) := by
  induction hs generalizing t n with
  | done previous =>
    rw [closings_closes _ _ previous.toList_nodup, pipeEnds_closes]
    simp [waiting]
  | noPipe p q rest previous e =>
    have hc : t.closings (.makePipe (.error e) :: closes (waiting previous (p :: q :: rest))) =
        t.closings (closes (waiting previous (p :: q :: rest))) := rfl
    have he : t.pipeEnds (.makePipe (.error e) :: closes (waiting previous (p :: q :: rest))) =
        t.pipeEnds (closes (waiting previous (p :: q :: rest))) := rfl
    rw [hc, he, closings_closes _ _ hr.nodup_waiting, pipeEnds_closes]
    simp
  | @noFork p rest previous piped pipe e hp =>
    have hfp := (t.fits_append.mp hf).1
    have hc := closings_closes (t.afterAll piped) _ (hr.nodup_open hp hfp)
    rw [hr.map_open hp hfp] at hc
    rw [closings_append, hp.closings_eq, List.nil_append, closings_spawn, pipeEnds_append,
      pipeEnds_spawn, pipeEnds_closes, List.append_nil]
    exact (List.Perm.of_eq hc).trans List.perm_append_comm
  | @forked p rest previous piped pipe calls started pid hp _ ih =>
    obtain ⟨hfp, hfc⟩ := fits_forked hf
    have hperm := handedOver_append_perm p rest previous pipe
    obtain ⟨hh, hw, hd⟩ := List.nodup_append'.mp (hperm.nodup_iff.mpr (hr.nodup_open hp hfp))
    have hmap : (waiting (pipe.map (·.1)) rest).map
          ((t.afterAll piped).afterAll (closes (handedOver p previous pipe))).leadsTo? =
        (waiting (pipe.map (·.1)) rest).map (t.afterAll piped).leadsTo? := by
      refine List.map_congr_left fun d hm => ?_
      exact congrArg (Option.map _)
        ((get?_closes _ _ d).trans (if_neg fun hn => hd hn hm))
    rw [closings_append, hp.closings_eq, List.nil_append, closings_spawn, closings_append,
      closings_closes _ _ hh, pipeEnds_append, pipeEnds_spawn, pipeEnds_append, pipeEnds_closes,
      List.nil_append, List.map_append, ← List.append_assoc]
    refine ((ih (hr.next hp hfp) hfc).append_left _).trans ?_
    rw [hmap, ← List.append_assoc, ← List.map_append]
    refine List.Perm.trans ((hperm.map _).append_right _) ?_
    rw [hr.map_open hp hfp]
    exact List.perm_append_comm.append_right _

/-- What waited for the stages is closed in the end, and nothing else has changed. -/
theorem Starts.get?_afterAll (hs : Starts env stages previous calls started)
    (hr : Ready t n previous stages) (hf : t.Fits calls) (d : Descriptor) :
    (t.afterAll calls).get? d = if d ∈ waiting previous stages then none else t.get? d := by
  induction hs generalizing t n with
  | done previous =>
    rw [get?_closes]
    simp [waiting]
  | noPipe p q rest previous e => exact get?_closes t _ d
  | @noFork p rest previous piped pipe e hp =>
    have hfp := (t.fits_append.mp hf).1
    rw [afterAll_append]
    exact (get?_closes _ (endsOf pipe ++ waiting previous (p :: rest)) d).trans
      (hp.get?_without_ends hfp d _)
  | @forked p rest previous piped pipe calls started pid hp _ ih =>
    obtain ⟨hfp, hfc⟩ := fits_forked hf
    have hm := (handedOver_append_perm p rest previous pipe).mem_iff (a := d)
    rw [afterAll_forked, ih (hr.next hp hfp) hfc, get?_closes, ← hp.get?_without_ends hfp d]
    simp only [← hm, List.mem_append]
    by_cases hw : d ∈ waiting (pipe.map (·.1)) rest <;> simp [hw]

theorem pipings_spawn {child : Child} {answer : Except Fault Pid} :
    t.pipings (.spawn env child answer :: calls) = t.pipings calls := rfl

/-- A pipe is asked for only when the stage before it is ready. -/
theorem Starts.ready (hs : Starts env stages previous calls started)
    (hr : Ready t n previous stages) (hf : t.Fits calls) {k : Nat} {held : Holdings}
    (hk : (t.pipings calls)[k]? = some held) :
    ∃ previous rest, rest ≠ [] ∧ Ready held (n + k) previous rest := by
  induction hs generalizing t n k with
  | done previous =>
    rw [pipings_closes] at hk
    cases hk
  | noPipe p q rest previous e =>
    have hc : t.pipings (.makePipe (.error e) :: closes (waiting previous (p :: q :: rest))) =
        t :: t.pipings (closes (waiting previous (p :: q :: rest))) := rfl
    rw [hc, pipings_closes, List.getElem?_singleton] at hk
    split_ifs at hk with hk0
    subst hk0
    obtain rfl := Option.some.inj hk
    exact ⟨previous, _, List.cons_ne_nil _ _, hr⟩
  | @noFork p rest previous piped pipe e hp =>
    rw [pipings_append, pipings_spawn, pipings_closes, List.append_nil] at hk
    cases hp with
    | last => cases hk
    | next q rest r w =>
      have hc : t.pipings [.makePipe (.ok (r, w))] = [t] := rfl
      rw [hc, List.getElem?_singleton] at hk
      split_ifs at hk with hk0
      subst hk0
      obtain rfl := Option.some.inj hk
      exact ⟨previous, _, List.cons_ne_nil _ _, hr⟩
  | @forked p rest previous piped pipe calls started pid hp hs ih =>
    obtain ⟨hfp, hfc⟩ := fits_forked hf
    rw [pipings_append, pipings_spawn, pipings_append, pipings_closes, List.nil_append] at hk
    have hn := hr.next hp hfp
    cases hp with
    | last =>
      cases hs
      rw [pipings_closes] at hk
      cases hk
    | next q rest r w =>
      cases k with
      | zero =>
        obtain rfl := Option.some.inj hk
        exact ⟨previous, _, List.cons_ne_nil _ _, hr⟩
      | succ k =>
        obtain ⟨before, after, hne, hready⟩ := ih hn hfc hk
        refine ⟨before, after, hne, ?_⟩
        rwa [Nat.add_assoc, Nat.add_comm 1 k] at hready

end

/-! ### Who holds the ends of the pipes -/

/-- The ends of the pipes beside stage `i` of `count` that the shell has open when it starts. -/
def neighbours (i count : Nat) : List Channel :=
  (if i = 0 then [] else [.reader (i - 1)]) ++
    if i + 1 < count then [.reader i, .writer i] else []

section
variable {t : Holdings} {i count : Nat} {previous : Option Descriptor} {p : Prepared}
  {pipe : Option (Descriptor × Descriptor)}

theorem Joined.exists_leadsTo?_iff (hj : Joined t i count p previous pipe) {e : Channel}
    (he : e.isPipeEnd = true) : (∃ d, t.leadsTo? d = some e) ↔ e ∈ neighbours i count := by
  constructor
  · rintro ⟨d, hd⟩
    obtain ⟨o, ho, rfl⟩ := leadsTo?_eq_some_iff.mp hd
    rcases (hj.only d o ho he).2 with rfl | h
    · have hc := hj.reads.eq_some hd
      split_ifs at hc with h0
      simp [neighbours, h0, ← Option.some.inj hc]
    · rw [endsOf, List.mem_append, Option.mem_toList, Option.mem_toList] at h
      rcases h with h | h
      · have hc := (h ▸ hj.reader).eq_some hd
        split_ifs at hc with hlt
        simp [neighbours, hlt, ← Option.some.inj hc]
      · have hc := (h ▸ hj.writer).eq_some hd
        split_ifs at hc with hlt
        simp [neighbours, hlt, ← Option.some.inj hc]
  · intro hm
    have hex {source : Option Descriptor} (hl : t.Leads source (some e)) :
        ∃ d, t.leadsTo? d = some e := hl.exists_eq.imp fun _ h => h.2
    rcases List.mem_append.mp hm with hm | hm
    · split_ifs at hm with h0
      · cases hm
      · obtain rfl := List.mem_singleton.mp hm
        exact hex (by simpa [h0] using hj.reads)
    · split_ifs at hm with hlt
      · have hm : e = .reader i ∨ e = .writer i := by simpa using hm
        rcases hm with rfl | rfl
        · exact hex (by simpa [hlt] using hj.reader)
        · exact hex (by simpa [hlt] using hj.writer)
      · cases hm

/-- Between two stages the reading end of the last pipe is open. -/
theorem Ready.exists_leadsTo?_iff {stages : List Prepared} (hr : Ready t i previous stages)
    (hne : stages ≠ []) {e : Channel} (he : e.isPipeEnd = true) :
    (∃ d, t.leadsTo? d = some e) ↔ i ≠ 0 ∧ e = .reader (i - 1) := by
  have hreads := hr.reads
  simp only [hne, or_false] at hreads
  constructor
  · rintro ⟨d, hd⟩
    obtain ⟨o, ho, rfl⟩ := leadsTo?_eq_some_iff.mp hd
    obtain ⟨-, rfl⟩ := hr.only d o ho he
    have hc := hreads.eq_some hd
    split_ifs at hc with h0
    exact ⟨h0, (Option.some.inj hc).symm⟩
  · rintro ⟨h0, rfl⟩
    rw [if_neg h0] at hreads
    exact hreads.exists_eq.imp fun _ h => h.2

/-- Of all processes only that of a stage ever holds the writing end of the pipe behind it. -/
theorem Starting.eq_of_has {f : Fork} {j : Nat} (hs : Starting f j count p)
    {T : Descriptors Channel} (hT : f.child.Has f.held.files T) {d : Descriptor}
    (hd : T.leadsTo? d = some (.writer i)) : j = i := by
  obtain ⟨previous, pipe, -, hj⟩ := hs
  have hm := (hj.exists_leadsTo?_iff rfl).mp (hT.exists_leadsTo? hd)
  rw [neighbours, List.mem_append] at hm
  rcases hm with hm | hm
  · split_ifs at hm <;> simp at hm
  · split_ifs at hm
    · simpa [eq_comm] using hm
    · simp at hm

/-- Of what a stage's process runs with only standard output leads to the pipe behind the stage. -/
theorem Starting.eq_one {f : Fork} (hs : Starting f i count p) {T : Descriptors Channel}
    (hw : f.child.wire f.held.files = some T) {d : Descriptor}
    (hd : T.atExec.leadsTo? d = some (.writer i)) : d = 1 := by
  obtain ⟨previous, pipe, hc, hj⟩ := hs
  obtain ⟨t', hin, hout⟩ := Option.bind_eq_some_iff.mp hw
  obtain ⟨o, ho, hl⟩ := Option.map_eq_some_iff.mp hd
  rw [Descriptors.get?_atExec, Option.filter_eq_some_iff] at ho
  obtain ⟨ho, hx⟩ := ho
  by_contra hne
  rw [Descriptors.get?_of_place hout, if_neg hne, Descriptors.get?_of_place hin] at ho
  -- an end that the child was not given would be closed now
  have hheld (h : f.held.get? d = some o) : False := by
    have hce := (hj.only d o h (by rw [hl]; rfl)).1
    rw [hce] at hx
    cases hx
  split_ifs at ho with h0
  · cases hs : f.child.stdin with
    | none =>
      subst h0
      rw [hs] at ho
      exact hheld ho
    | some r =>
      rw [hs] at ho
      obtain ⟨o', hr, rfl⟩ := Option.map_eq_some_iff.mp ho
      have hr : f.held.leadsTo? r = some (.writer i) := leadsTo?_eq_some_iff.mpr ⟨o', hr, hl⟩
      rw [hc] at hs
      cases previous with
      | some d' =>
        obtain rfl := Option.some.inj hs
        have hc := hj.reads.eq_some hr
        split_ifs at hc
        cases hc
      | none =>
        have hs : p.stdin = some r := hs
        obtain ⟨c, hc, hi⟩ := hj.own r (by simp [Prepared.descriptors, hs])
        cases hr.symm.trans hc
        cases hi
  · exact hheld ho

end

/-! ### Everything is released -/

/-- How the calls that start stages leave what is open. -/
structure Releases (t : Holdings) (stages : List Prepared) (calls : List Call) : Prop where
  /-- The files of the stages and both ends of each pipe are closed, each once. -/
  closed : (t.closings calls).Perm ((stages.flatMap Prepared.descriptors).map t.leadsTo? ++
    ((List.range (t.afterAll calls).pipes).flatMap fun i => [.reader i, .writer i]).map some)
  /-- In the end nothing else has changed. -/
  left : ∀ d, (t.afterAll calls).get? d =
    if d ∈ stages.flatMap Prepared.descriptors then none else t.get? d
  /-- When the shell asks for pipe `i` the only end of a pipe that it has open is the reading end
  of the one before. -/
  asking : ∀ i (held : Holdings), (t.pipings calls)[i]? = some held →
    ∀ e : Channel, e.isPipeEnd = true →
      ((∃ d, held.leadsTo? d = some e) ↔ i ≠ 0 ∧ e = .reader (i - 1))
  /-- When it starts stage `i` it has open that end and both of pipe `i`. -/
  starting : ∀ i (f : Fork), (t.forks calls)[i]? = some f → i < stages.length ∧
    ∀ e : Channel, e.isPipeEnd = true →
      ((∃ d, f.held.leadsTo? d = some e) ↔ e ∈ neighbours i stages.length)
  /-- No other child ever holds the writing end of pipe `i`. -/
  others : ∀ i j (f : Fork), (t.forks calls)[j]? = some f → j ≠ i →
    ∀ T, f.child.Has f.held.files T → ∀ d, T.leadsTo? d ≠ some (.writer i)
  /-- The child of stage `i` holds it as standard output only, once it is another program. -/
  own : ∀ i (f : Fork), (t.forks calls)[i]? = some f →
    ∀ T, f.child.wire f.held.files = some T → ∀ d, T.atExec.leadsTo? d = some (.writer i) → d = 1

/-- Whatever the system answers, the start of stages releases all that the shell had open for them,
and a writing end is held by nobody but the stage that writes. -/
theorem start_releases {σ : Type} (h : Host σ) (env : Environment) (stages : List Prepared) (s : σ)
    (t : Holdings) (hp : Provided t stages)
    (hf : t.Fits (start h.recorded env stages none ⟨s, []⟩).2.log) :
    Releases t stages (start h.recorded env stages none ⟨s, []⟩).2.log := by
  obtain ⟨calls, hs, hr⟩ := start_recorded []
    (rfl : start h env stages none s = (_, _))
  rw [hr, List.nil_append] at hf ⊢
  have hready := hp.ready
  have hstart {i : Nat} {f : Fork} (hi : (t.forks calls)[i]? = some f) :
      ∃ p, stages[i]? = some p ∧ Starting f i stages.length p := by
    obtain ⟨p, hp, hst, -⟩ := hs.starting hready hf hi
    rw [Nat.zero_add, Nat.zero_add] at hst
    exact ⟨p, hp, hst⟩
  constructor
  case closed =>
    have he := (t.pipeEnds_eq calls).2
    rw [hp.pipes, Nat.sub_zero, ← List.range_eq_range'] at he
    rw [← he]
    exact hs.closings_perm hready hf
  case left => exact hs.get?_afterAll hready hf
  case asking =>
    intro i held hi e he
    obtain ⟨previous, rest, hne, hrd⟩ := hs.ready hready hf hi
    rw [Nat.zero_add] at hrd
    exact hrd.exists_leadsTo?_iff hne he
  case starting =>
    intro i f hi
    obtain ⟨p, hp, previous, pipe, -, hj⟩ := hstart hi
    exact ⟨(List.getElem?_eq_some_iff.mp hp).1, fun e he => hj.exists_leadsTo?_iff he⟩
  case others =>
    intro i j f hj hne T hT d hd
    obtain ⟨p, -, hst⟩ := hstart hj
    exact hne (hst.eq_of_has hT hd)
  case own =>
    intro i f hi T hw d hd
    obtain ⟨p, -, hst⟩ := hstart hi
    exact hst.eq_one hw hd

open Machine (Desk) in
/-- Three stages, of which the first reads a text. -/
theorem start_releases_text :
    let d := (Desk.host.stageText "x" (Desk.onDisk .empty Machine.Disk.root true (some .empty))).2
    let stages : List Prepared :=
      [⟨.refusal "a" 127, some 3, none⟩, ⟨.refusal "b" 127, none, none⟩,
        ⟨.refusal "c" 126, none, none⟩]
    let t := standing.gain 3 (.text "x")
    let log := (start Desk.host.recorded {} stages none ⟨d, []⟩).2.log
    Provided t stages ∧ t.Fits log ∧ (t.forks log).length = 3 ∧ Releases t stages log := by
  intro d stages t log
  have hp : Provided t stages :=
    { toUnpiped := unpiped_of_entries rfl (by decide), given := by decide, nodup := by decide }
  have hf : t.Fits log := by decide +kernel
  exact ⟨hp, hf, by decide +kernel, start_releases Desk.host {} stages d t hp hf⟩

end AssistedShell.Launch
