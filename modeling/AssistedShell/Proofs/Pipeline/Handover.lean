import AssistedShell.Proofs.Host.Holdings
import AssistedShell.Proofs.Pipeline.Record
import Mathlib.Data.List.Nodup

/-! What the shell holds open at the start of each stage of a pipeline: the ends of
the two pipes beside the stage, and the files of the stages to come. What belongs
to a stage is closed as soon as the stage has it. -/

namespace AssistedShell.Launch

open Holdings

/-! ### Closing -/

section
variable (t : Holdings) (ds : List Descriptor)

theorem Idle.forks_eq {calls : List Call} (hi : Idle calls) : t.forks calls = [] := by
  induction calls generalizing t with
  | nil => rfl
  | cons c cs ih =>
    have hcs := ih (t.after c) fun c hm => hi c (List.mem_cons_of_mem _ hm)
    have hn : fork? (t, c) = none := by
      have hc := hi c List.mem_cons_self
      cases c <;> first | rfl | cases hc
    rw [forks, steps, List.filterMap_cons_none hn]
    exact hcs

theorem get?_closes (d : Descriptor) :
    (t.afterAll (closes ds)).get? d = if d ∈ ds then none else t.get? d := by
  induction ds generalizing t with
  | nil => simp [closes, afterAll]
  | cons d' ds ih =>
    have hc : t.afterAll (closes (d' :: ds)) = (t.drop d').afterAll (closes ds) := rfl
    rw [hc, ih, get?_drop]
    by_cases hm : d ∈ ds
    · simp [hm]
    · by_cases hd : d = d' <;> simp [hm, hd]

theorem pipes_closes : (t.afterAll (closes ds)).pipes = t.pipes := by
  induction ds generalizing t with
  | nil => rfl
  | cons d ds ih => exact ih (t.drop d)

end

/-! ### One stage -/

/-- The descriptors of a pipe. -/
def endsOf (pipe : Option (Descriptor × Descriptor)) : List Descriptor :=
  (pipe.map (·.1)).toList ++ (pipe.map (·.2)).toList

/-- What holds when stage `n` is next: the only end of a pipe that is open is that from which the
stage is to read, and the files of the stages to come are open. -/
structure Ready (t : Holdings) (n : Nat) (previous : Option Descriptor) (stages : List Prepared) :
    Prop where
  pipes : stages ≠ [] → t.pipes = n
  reads : t.Leads previous (if n = 0 ∨ stages = [] then none else some (.reader (n - 1)))
  only : ∀ d o, t.get? d = some o → o.leadsTo.isPipeEnd = true →
    o.closeOnExec = true ∧ previous = some d
  own : ∀ d ∈ stages.flatMap Prepared.descriptors,
    ∃ c, t.leadsTo? d = some c ∧ c.isPipeEnd = false
  nodup : (stages.flatMap Prepared.descriptors).Nodup

/-- What holds when stage `i` of `count` starts: besides the end from which it is to read, the two
ends of the pipe behind it are open, if there is one. -/
structure Joined (t : Holdings) (i count : Nat) (p : Prepared) (previous : Option Descriptor)
    (pipe : Option (Descriptor × Descriptor)) : Prop where
  reads : t.Leads previous (if i = 0 then none else some (.reader (i - 1)))
  reader : t.Leads (pipe.map (·.1)) (if i + 1 < count then some (.reader i) else none)
  writer : t.Leads (pipe.map (·.2)) (if i + 1 < count then some (.writer i) else none)
  only : ∀ d o, t.get? d = some o → o.leadsTo.isPipeEnd = true →
    o.closeOnExec = true ∧ (previous = some d ∨ d ∈ endsOf pipe)
  own : ∀ d ∈ p.descriptors, ∃ c, t.leadsTo? d = some c ∧ c.isPipeEnd = false

section
variable {t : Holdings} {n : Nat} {previous : Option Descriptor} {p : Prepared}
  {rest : List Prepared} {piped : List Call} {pipe : Option (Descriptor × Descriptor)}

/-- A pipe takes two free descriptors. -/
theorem Pipes.get? (hp : Pipes rest piped pipe) (hf : t.Fits piped) (d : Descriptor) :
    (d ∈ endsOf pipe ∧ t.get? d = none) ∨
      (d ∉ endsOf pipe ∧ (t.afterAll piped).get? d = t.get? d) := by
  cases hp with
  | last => exact .inr ⟨List.not_mem_nil, rfl⟩
  | next q rest r w =>
    obtain ⟨⟨-, hfree⟩, -⟩ := t.fits_cons.mp hf
    by_cases hd : d ∈ endsOf (some (r, w))
    · exact .inl ⟨hd, hfree d hd⟩
    · refine .inr ⟨hd, ?_⟩
      have hr : d ≠ r := fun h => hd (h ▸ List.mem_cons_self)
      have hw : d ≠ w := fun h => hd (h ▸ List.mem_cons_of_mem _ List.mem_cons_self)
      exact (get?_gain _ w d _).trans ((if_neg hw).trans ((get?_gain _ r d _).trans (if_neg hr)))

theorem Pipes.kept (hp : Pipes rest piped pipe) (hf : t.Fits piped) {d : Descriptor}
    {o : Opened Channel} (hd : t.get? d = some o) : (t.afterAll piped).get? d = some o := by
  rcases hp.get? hf d with ⟨-, hn⟩ | ⟨-, he⟩
  · rw [hd] at hn
    cases hn
  · rw [he, hd]

/-- The two ends of a pipe that has just been made. -/
theorem get?_makePipe {r w : Descriptor} (hf : t.Fits [.makePipe (.ok (r, w))]) :
    (t.afterAll [.makePipe (.ok (r, w))]).get? r = some ⟨.reader t.pipes, true⟩ ∧
      (t.afterAll [.makePipe (.ok (r, w))]).get? w = some ⟨.writer t.pipes, true⟩ := by
  have hne : r ≠ w := by simpa [Call.handedOut] using (t.fits_cons.mp hf).1.1
  have hw (d : Descriptor) := get?_gain (t.gain r (.reader t.pipes)) w d (.writer t.pipes)
  exact ⟨(hw r).trans ((if_neg hne).trans ((get?_gain t r r _).trans (if_pos rfl))),
    (hw w).trans (if_pos rfl)⟩

theorem Ready.joined (hr : Ready t n previous (p :: rest)) (hp : Pipes rest piped pipe)
    (hf : t.Fits piped) : Joined (t.afterAll piped) n (n + (p :: rest).length) p previous pipe where
  reads := by
    have h := hr.reads
    simp only [reduceCtorEq, or_false] at h
    exact h.kept fun d o _ hd => hp.kept hf hd
  reader := by
    cases hp with
    | last => simp [Leads]
    | next q rest r w =>
      rw [if_pos (by simp), ← hr.pipes (List.cons_ne_nil _ _)]
      exact leads_some_iff.mpr ⟨_, rfl, leadsTo?_eq_some_iff.mpr ⟨_, (get?_makePipe hf).1, rfl⟩⟩
  writer := by
    cases hp with
    | last => simp [Leads]
    | next q rest r w =>
      rw [if_pos (by simp), ← hr.pipes (List.cons_ne_nil _ _)]
      exact leads_some_iff.mpr ⟨_, rfl, leadsTo?_eq_some_iff.mpr ⟨_, (get?_makePipe hf).2, rfl⟩⟩
  only := by
    intro d o hd ho
    rcases hp.get? hf d with ⟨hm, -⟩ | ⟨hm, he⟩
    · refine ⟨?_, .inr hm⟩
      cases hp with
      | last => cases hm
      | next q rest r w =>
        have hrw : d = r ∨ d = w := by simpa [endsOf] using hm
        rcases hrw with rfl | rfl
        · cases (get?_makePipe hf).1.symm.trans hd
          rfl
        · cases (get?_makePipe hf).2.symm.trans hd
          rfl
    · obtain ⟨hc, hp⟩ := hr.only d o (he ▸ hd) ho
      exact ⟨hc, .inl hp⟩
  own := by
    intro d hd
    obtain ⟨c, hc, hi⟩ := hr.own d (by simp [hd])
    obtain ⟨o, ho, rfl⟩ := leadsTo?_eq_some_iff.mp hc
    exact ⟨_, leadsTo?_eq_some_iff.mpr ⟨o, hp.kept hf ho, rfl⟩, hi⟩

theorem mem_handedOver {d : Descriptor} : d ∈ handedOver p previous pipe ↔
    d ∈ p.descriptors ∨ pipe.map (·.2) = some d ∨ previous = some d := by
  rw [handedOver, List.mem_append, List.mem_append, Option.mem_toList, Option.mem_toList, or_assoc]

/-- What the shell hands over leads to the stage's own files, the writing end of the pipe behind
it or the reading end of the one before it. -/
theorem Joined.leadsTo?_of_mem {i count : Nat} (hj : Joined t i count p previous pipe)
    {d : Descriptor} (hd : d ∈ handedOver p previous pipe) :
    ∃ c, t.leadsTo? d = some c ∧
      (d ∈ p.descriptors ∧ c.isPipeEnd = false ∨ c = .writer i ∨ i ≠ 0 ∧ c = .reader (i - 1)) := by
  rcases mem_handedOver.mp hd with hd | hd | rfl
  · obtain ⟨c, hc, hi⟩ := hj.own d hd
    exact ⟨c, hc, .inl ⟨hd, hi⟩⟩
  · have hw := hj.writer
    rw [hd, leads_some_iff] at hw
    obtain ⟨c, hi, hc⟩ := hw
    split_ifs at hi
    exact ⟨c, hc, .inr (.inl (Option.some.inj hi).symm)⟩
  · obtain ⟨c, hi, hc⟩ := leads_some_iff.mp hj.reads
    split_ifs at hi with h0
    exact ⟨c, hc, .inr (.inr ⟨h0, (Option.some.inj hi).symm⟩)⟩

/-- When the shell has handed over what belongs to a stage, the next one is ready. -/
theorem Ready.next (hr : Ready t n previous (p :: rest)) (hp : Pipes rest piped pipe)
    (hf : t.Fits piped) :
    Ready ((t.afterAll piped).afterAll (closes (handedOver p previous pipe))) (n + 1)
      (pipe.map (·.1)) rest := by
  have hj := hr.joined hp hf
  have hrest (d : Descriptor) (hd : d ∈ rest.flatMap Prepared.descriptors) :
      ∃ o, (t.afterAll piped).get? d = some o ∧ o.leadsTo.isPipeEnd = false := by
    obtain ⟨c, hc, hi⟩ := hr.own d (List.mem_append_right _ hd)
    obtain ⟨o, ho, rfl⟩ := leadsTo?_eq_some_iff.mp hc
    exact ⟨o, hp.kept hf ho, hi⟩
  have hnodup : (p.descriptors ++ rest.flatMap Prepared.descriptors).Nodup := hr.nodup
  constructor
  case pipes =>
    intro hne
    rw [pipes_closes]
    cases hp with
    | last => exact absurd rfl hne
    | next q rest r w => exact congrArg (· + 1) (hr.pipes (List.cons_ne_nil _ _))
  case reads =>
    cases hp with
    | last => simp [leads_none_iff]
    | next q rest r w =>
      have hreader : (t.afterAll [.makePipe (.ok (r, w))]).leadsTo? r = some (.reader n) := by
        obtain ⟨c, hi, hc⟩ := leads_some_iff.mp hj.reader
        rw [if_pos (by simp)] at hi
        exact hc.trans hi.symm
      have hnot : r ∉ handedOver p previous (some (r, w)) := by
        intro hm
        obtain ⟨c, hc, h⟩ := hj.leadsTo?_of_mem hm
        cases hreader.symm.trans hc
        rcases h with ⟨-, h⟩ | h | ⟨h0, h⟩
        · cases h
        · cases h
        · have := Channel.reader.inj h
          omega
      refine leads_some_iff.mpr ⟨.reader n, by simp, ?_⟩
      obtain ⟨o, ho, hc⟩ := leadsTo?_eq_some_iff.mp hreader
      exact leadsTo?_eq_some_iff.mpr ⟨o, by rw [get?_closes, if_neg hnot, ho], hc⟩
  case only =>
    intro d o hd ho
    rw [get?_closes] at hd
    split_ifs at hd with hm
    obtain ⟨hc, h | h⟩ := hj.only d o hd ho
    · exact absurd (mem_handedOver.mpr (.inr (.inr h))) hm
    · refine ⟨hc, ?_⟩
      rw [endsOf, List.mem_append, Option.mem_toList, Option.mem_toList] at h
      exact h.resolve_right fun h => hm (mem_handedOver.mpr (.inr (.inl h)))
  case own =>
    intro d hd
    obtain ⟨o, ho, hi⟩ := hrest d hd
    have hnot : d ∉ handedOver p previous pipe := by
      intro hm
      obtain ⟨c, hc, h⟩ := hj.leadsTo?_of_mem hm
      cases (leadsTo?_eq_some_iff.mpr ⟨o, ho, rfl⟩).symm.trans hc
      rcases h with ⟨h, -⟩ | h | ⟨-, h⟩
      · exact (List.nodup_append'.mp hnodup).2.2 h hd
      · rw [h] at hi
        cases hi
      · rw [h] at hi
        cases hi
    exact ⟨_, leadsTo?_eq_some_iff.mpr ⟨o, by rw [get?_closes, if_neg hnot, ho], rfl⟩, hi⟩
  case nodup => exact (List.nodup_append'.mp hnodup).2.1

/-- What is open stays open while a stage starts, unless it is handed over; and the next stage does
not read from it. -/
theorem Pipes.kept_handingOver (hp : Pipes rest piped pipe) (hf : t.Fits piped) {d : Descriptor}
    {o : Opened Channel} (hd : t.get? d = some o) (hn : d ∉ waiting previous [p]) :
    ((t.afterAll piped).afterAll (closes (handedOver p previous pipe))).get? d = some o ∧
      pipe.map (·.1) ≠ some d := by
  have hfree : d ∉ endsOf pipe := by
    rcases hp.get? hf d with ⟨-, h⟩ | ⟨h, -⟩
    · rw [hd] at h
      cases h
    · exact h
  have hnot : d ∉ handedOver p previous pipe := by
    rw [mem_handedOver]
    rintro (h | h | h)
    · exact hn (by simp [waiting, h])
    · exact hfree (by simp [endsOf, h])
    · exact hn (by simp [waiting, h])
  refine ⟨by rw [get?_closes, if_neg hnot, hp.kept hf hd], fun h => hfree ?_⟩
  simp [endsOf, h]

end

/-! ### All stages -/

/-- Whether stage `i` of `count` starts as one of a pipeline does. -/
def Starting (f : Fork) (i count : Nat) (p : Prepared) : Prop :=
  ∃ previous pipe, f.child = childOf p previous pipe ∧ Joined f.held i count p previous pipe

section
variable {t : Holdings} {env : Environment} {n : Nat} {previous : Option Descriptor}
  {stages : List Prepared} {calls : List Call} {started : Started}

theorem forks_spawn {child : Child} {answer : Except Fault Pid} :
    t.forks (.spawn env child answer :: calls) = ⟨t, child, answer⟩ :: t.forks calls := rfl

section
variable {rest : List Prepared} {piped : List Call} {pipe : Option (Descriptor × Descriptor)}
  {child : Child} {answer : Except Fault Pid} {ds : List Descriptor}

theorem fits_forked (hf : t.Fits (piped ++ .spawn env child answer :: (closes ds ++ calls))) :
    t.Fits piped ∧ ((t.afterAll piped).afterAll (closes ds)).Fits calls := by
  obtain ⟨hp, hf⟩ := t.fits_append.mp hf
  exact ⟨hp, ((t.afterAll piped).fits_append.mp ((fits_cons _).mp hf).2).2⟩

theorem afterAll_forked :
    t.afterAll (piped ++ .spawn env child answer :: (closes ds ++ calls)) =
      ((t.afterAll piped).afterAll (closes ds)).afterAll calls := by
  rw [afterAll_append]
  exact afterAll_append _ _ _

theorem Pipes.forks_forked (hp : Pipes rest piped pipe) :
    t.forks (piped ++ .spawn env child answer :: (closes ds ++ calls)) =
      ⟨t.afterAll piped, child, answer⟩ ::
        ((t.afterAll piped).afterAll (closes ds)).forks calls := by
  rw [forks_append, hp.idle.forks_eq, List.nil_append, forks_spawn, forks_append,
    (idle_closes ds).forks_eq, List.nil_append]

end

/-- Every process is started as a stage of the pipeline, and what is open and does not belong to an
earlier stage is open then. -/
theorem Starts.starting (hs : Starts env stages previous calls started)
    (hr : Ready t n previous stages) (hf : t.Fits calls) {k : Nat} {f : Fork}
    (hk : (t.forks calls)[k]? = some f) :
    ∃ p, stages[k]? = some p ∧ Starting f (n + k) (n + stages.length) p ∧
      ∀ d o, t.get? d = some o → d ∉ waiting previous (stages.take k) → f.held.get? d = some o := by
  induction hs generalizing t n k with
  | done previous =>
    rw [(idle_closes _).forks_eq] at hk
    cases hk
  | noPipe p q rest previous e =>
    have hn : t.forks (.makePipe (.error e) :: closes (waiting previous (p :: q :: rest))) = [] :=
      (idle_closes _).forks_eq t
    rw [hn] at hk
    cases hk
  | @noFork p rest previous piped pipe e hp =>
    have hfp := (t.fits_append.mp hf).1
    rw [forks_append, hp.idle.forks_eq, List.nil_append, forks_spawn, (idle_closes _).forks_eq,
      List.getElem?_singleton] at hk
    split_ifs at hk with hk0
    subst hk0
    obtain rfl := Option.some.inj hk
    exact ⟨p, rfl, ⟨previous, pipe, rfl, hr.joined hp hfp⟩, fun d o hd _ => hp.kept hfp hd⟩
  | @forked p rest previous piped pipe calls started pid hp _ ih =>
    obtain ⟨hfp, hfc⟩ := fits_forked hf
    rw [hp.forks_forked] at hk
    cases k with
    | zero =>
      obtain rfl := Option.some.inj hk
      exact ⟨p, rfl, ⟨previous, pipe, rfl, hr.joined hp hfp⟩, fun d o hd _ => hp.kept hfp hd⟩
    | succ k =>
      obtain ⟨q, hq, hst, hkept⟩ := ih (hr.next hp hfp) hfc hk
      refine ⟨q, hq, ?_, fun d o hd hn => ?_⟩
      · have hi : n + 1 + k = n + (k + 1) := by omega
        have hc : n + 1 + rest.length = n + (p :: rest).length := by
          rw [List.length_cons]
          omega
        rwa [hi, hc] at hst
      · have hn : d ∉ waiting previous [p] ∧ d ∉ (rest.take k).flatMap Prepared.descriptors := by
          simpa [waiting, not_or, and_assoc] using hn
        obtain ⟨hd, hne⟩ := hp.kept_handingOver hfp hd hn.1
        refine hkept d o hd ?_
        simpa [waiting, hne] using hn.2

end

/-! ### From the first stage on -/

/-- What the shell holds before stages start that it has made ready: their files are open, and no
pipe is. -/
structure Provided (t : Holdings) (stages : List Prepared) : Prop extends t.Unpiped where
  given : ∀ d ∈ stages.flatMap Prepared.descriptors, (t.leadsTo? d).isSome
  nodup : (stages.flatMap Prepared.descriptors).Nodup

theorem Provided.ready {t : Holdings} {stages : List Prepared} (hp : Provided t stages) :
    Ready t 0 none stages where
  pipes _ := hp.pipes
  reads := by simp [Leads]
  only d o hd ho := by
    rw [hp.noEnds d _ (leadsTo?_eq_some_iff.mpr ⟨o, hd, rfl⟩)] at ho
    cases ho
  own d hd := by
    obtain ⟨c, hc⟩ := Option.isSome_iff_exists.mp (hp.given d hd)
    exact ⟨c, hc, hp.noEnds d c hc⟩
  nodup := hp.nodup

end AssistedShell.Launch
