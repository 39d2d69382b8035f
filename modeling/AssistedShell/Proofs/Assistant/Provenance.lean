import AssistedShell.Proofs.Assistant.Protocol
import Mathlib.Data.List.Induction

/-! Where the commands come from that are run for a request. A reply that
suggests commands is a batch, and a newer batch takes the place of an older
one. The lines of the latest batch are shown one after another, each once, and
what is run is what the user made of the line just shown. Nothing follows a
success or a failure. -/

namespace AssistedShell.Errand

variable {σ : Type} {e : Errand} {a : Assistant σ} {p q r : Phase} {call : Call}
  {vs : List Visit} {v : Visit}

/-! ### Parts of a course -/

/-- A course is one before any of its visits, the step there, and one after it. -/
theorem Course.split {before after : List Visit} (hc : Course e a p (before ++ v :: after) r) :
    ∃ q, Course e a p before v.phase ∧ Step e a v.phase v.call q ∧ Course e a q after r := by
  induction after using List.reverseRecOn generalizing r with
  | nil =>
    generalize hvs : before ++ [v] = vs at hc
    cases hc with
    | start => simp at hvs
    | step hc hs =>
      obtain ⟨rfl, hv⟩ := List.append_inj' hvs rfl
      obtain rfl := List.singleton_inj.mp hv
      exact ⟨_, hc, hs, .start⟩
  | append_singleton after w ih =>
    generalize hvs : before ++ v :: (after ++ [w]) = vs at hc
    rw [← List.cons_append, ← List.append_assoc] at hvs
    cases hc with
    | start => simp at hvs
    | step hc hs =>
      obtain ⟨rfl, hw⟩ := List.append_inj' hvs rfl
      obtain rfl := List.singleton_inj.mp hw
      obtain ⟨q, hb, hv, ha⟩ := ih hc
      exact ⟨q, hb, hv, ha.step hs⟩

/-- The first step of a course. -/
theorem Course.head (hc : Course e a p (v :: vs) r) : v.phase = p ∧ ∃ q, Step e a p v.call q := by
  rw [← List.nil_append (v :: vs)] at hc
  obtain ⟨q, hb, hs, -⟩ := hc.split
  generalize hn : ([] : List Visit) = us at hb
  cases hb with
  | start => exact ⟨rfl, q, hs⟩
  | step => simp at hn

/-- Nothing follows the end. -/
theorem Course.eq_nil_of_ended {result : Except AssistantFault Outcome}
    (hc : Course e a (.ended result) vs r) : vs = [] := by
  cases vs with
  | nil => rfl
  | cons v vs =>
    obtain ⟨-, q, hs⟩ := hc.head
    cases hs

/-! ### Batches -/

/-- The commands that a visit offers: those of the first reply, or of a reply to a follow-up request
that does not report success. A reply without commands offers nothing, and no analysis does. -/
inductive Visit.Offers : Visit → List String → Prop where
  | first {request reply} : Reply.commands reply ≠ [] →
      Offers ⟨.opening, .ask request (.ok reply)⟩ (Reply.commands reply)
  | further {output analysis queue n request reply} :
      (∀ before after, reply ≠ before ++ "SUCCESS" ++ after) → Reply.commands reply ≠ [] →
      Offers ⟨.analysed output analysis queue n, .ask request (.ok reply)⟩ (Reply.commands reply)

/-- The line that a visit shows. -/
def Visit.shown? (v : Visit) : Option String :=
  match v.call with
  | .preview _ line _ _ => some line
  | _ => none

/-- The lines shown, in their order. -/
def shown (vs : List Visit) : List String := vs.filterMap Visit.shown?

/-- Whether `queue` is what was not shown yet of the latest batch. -/
def Remains (vs : List Visit) (queue : List String) : Prop :=
  ∃ older v window batch, vs = older ++ v :: window ∧ v.Offers batch ∧
    (∀ w ∈ window, ∀ b, ¬ w.Offers b) ∧ batch = shown window ++ queue

theorem Visit.Offers.remains {batch : List String} (ho : v.Offers batch) :
    Remains (vs ++ [v]) batch :=
  ⟨vs, v, [], batch, rfl, ho, List.forall_mem_nil _, rfl⟩

/-- A visit that offers nothing takes from the batch what it shows. -/
theorem Remains.concat {queue : List String} (hr : Remains vs (v.shown?.toList ++ queue))
    (ho : ∀ b, ¬ v.Offers b) : Remains (vs ++ [v]) queue := by
  obtain ⟨older, u, window, batch, rfl, hu, hw, rfl⟩ := hr
  refine ⟨older, u, window ++ [v], _, by simp, hu, ?_, ?_⟩
  · intro w hm
    rcases List.mem_append.mp hm with hm | hm
    · exact hw w hm
    · obtain rfl := List.mem_singleton.mp hm
      exact ho
  · rw [shown, shown, List.filterMap_append, List.append_assoc]
    cases hs : v.shown? with
    | none => simp [hs]
    | some line => simp [hs]

/-- The commands that are left in a phase. -/
def Phase.queue : Phase → List String
  | .queued queue _ | .chosen _ queue _ | .ran _ queue _ | .shown _ queue _
  | .analysed _ _ queue _ => queue
  | .opening | .ended _ => []

/-- The commands that are left, if any, remain of the latest batch. -/
def Follows (vs : List Visit) (p : Phase) : Prop := p.queue ≠ [] → Remains vs p.queue

/-! ### One step -/

theorem Step.follows (hs : Step e a p call q) (hf : Follows vs p) :
    Follows (vs ++ [⟨p, call⟩]) q := by
  intro hne
  cases hs with
  | refused | unseen | unwritten | unanalysed | fulfilled | exhausted | unhelped | corrected =>
    exact absurd rfl hne
  | told => exact (Visit.Offers.first hne).remains
  | cancelled | blank | chosen => exact (hf (List.cons_ne_nil _ _)).concat nofun
  | ran | shown | analysed => exact (hf hne).concat nofun
  | @followed _ _ queue _ _ reply _ hyes =>
    by_cases hc : Reply.commands reply = []
    · have hn : next queue reply = queue := by rw [next, hc]; rfl
      rw [Phase.queue, hn] at hne ⊢
      refine (hf hne).concat ?_
      rintro b ⟨⟩
      exact absurd hc ‹_›
    · have hn : next queue reply = Reply.commands reply := by
        rw [next]
        simp [hc]
      rw [Phase.queue, hn]
      exact (Visit.Offers.further (Prompts.isSuccess_eq_false_iff.mp hyes) hc).remains

theorem Course.follows (hc : Course e a .opening vs p) : Follows vs p := by
  induction hc with
  | start => exact fun hne => absurd rfl hne
  | step _ hs ih => exact hs.follows ih

/-! ### Whole courses -/

/-- Whether a visit is the last: a request or the terminal fails, or a reply to an analysis or to a
follow-up request reports success, that is, holds the token. -/
inductive Visit.Stops : Visit → Prop where
  | refused {phase request fault} : Stops ⟨phase, .ask request (.error fault)⟩
  | fulfilled {output queue n request reply before after} :
      reply = before ++ "SUCCESS" ++ after →
      Stops ⟨.shown output queue n, .ask request (.ok reply)⟩
  | corrected {output analysis queue n request reply before after} :
      reply = before ++ "SUCCESS" ++ after →
      Stops ⟨.analysed output analysis queue n, .ask request (.ok reply)⟩
  | unseen {phase prompt line ms fault} : Stops ⟨phase, .preview prompt line ms (.error fault)⟩
  | unwritten {phase text fault} : Stops ⟨phase, .writeOut text (.error fault)⟩

theorem Step.ended_of_stops (hs : Step e a v.phase v.call q) (hv : v.Stops) :
    ∃ result, q = .ended result := by
  cases hv with
  | refused | unseen | unwritten =>
    cases hs with
    | _ => exact ⟨_, rfl⟩
  | fulfilled hyes =>
    cases hs with
    | fulfilled => exact ⟨_, rfl⟩
    | exhausted => exact ⟨_, rfl⟩
    | analysed _ hno => exact absurd hyes (Prompts.isSuccess_eq_false_iff.mp hno _ _)
  | corrected hyes =>
    cases hs with
    | corrected => exact ⟨_, rfl⟩
    | followed _ hno => exact absurd hyes (Prompts.isSuccess_eq_false_iff.mp hno _ _)

/-- What is shown and run comes from the latest batch, line by line. -/
structure Faithful (e : Errand) (vs : List Visit) : Prop where
  /-- A line that is shown is the next of the latest batch. -/
  shown : ∀ before v after line, vs = before ++ v :: after → v.shown? = some line →
    ∃ rest, Remains before (line :: rest)
  /-- A command that is run is what the user made of the line shown right before, and not blank. -/
  run : ∀ before v after environment command directory answer, vs = before ++ v :: after →
    v.call = .capture environment command directory answer →
    command.isAllBlank = false ∧ ∃ earlier u line, before = earlier ++ [u] ∧
      u.call = .preview e.prompt line e.previewMs (.ok (.run command)) ∧
      ∃ rest, Remains earlier (line :: rest)
  /-- A line that is shown is run, unless the user cancels it or leaves it blank. -/
  unskipped : ∀ before v after prompt line ms command, vs = before ++ v :: after →
    v.call = .preview prompt line ms (.ok (.run command)) → command.isAllBlank = false →
    ∃ w later answer, after = w :: later ∧
      w.call = .capture e.environment command e.directory answer
  /-- Nothing is shown, asked or run after a success or a failure. -/
  stop : ∀ before v after, vs = before ++ v :: after → v.Stops → after = []

theorem Step.queue_of_shown {line : String} (hs : Step e a v.phase v.call q)
    (hl : v.shown? = some line) : ∃ rest n, v.phase = .queued (line :: rest) n := by
  obtain ⟨phase, call⟩ := v
  cases hs with
  | unseen | cancelled | blank | chosen =>
    obtain rfl := Option.some.inj hl
    exact ⟨_, _, rfl⟩
  | _ => cases hl

/-- A line that is shown is the next of the latest batch. -/
theorem Course.remains {line : String} (hc : Course e a .opening vs v.phase)
    (hs : Step e a v.phase v.call q) (hl : v.shown? = some line) :
    ∃ rest, Remains vs (line :: rest) := by
  obtain ⟨rest, n, hp⟩ := hs.queue_of_shown hl
  have hf := hc.follows
  rw [hp] at hf
  exact ⟨rest, hf (List.cons_ne_nil _ _)⟩

/-- A command is chosen by the preview of a line, and not blank. -/
theorem Course.exists_preview {command : String} {queue : List String} {n : Nat}
    (hc : Course e a .opening vs (.chosen command queue n)) :
    command.isAllBlank = false ∧ ∃ earlier u line, vs = earlier ++ [u] ∧
      u.call = .preview e.prompt line e.previewMs (.ok (.run command)) ∧
      ∃ rest, Remains earlier (line :: rest) := by
  cases hc with
  | @step us _ _ _ hc hs =>
    cases hs with
    | @chosen candidate _ _ _ hb =>
      exact ⟨hb, us, ⟨_, _⟩, candidate, rfl, rfl, hc.remains (v := ⟨_, _⟩) (.chosen hb) rfl⟩

theorem Course.faithful (hc : Course e a .opening vs p) {result : Except AssistantFault Outcome}
    (hr : p.result? = some result) : Faithful e vs where
  shown := by
    rintro before v after line rfl hl
    obtain ⟨q, hb, hs, -⟩ := hc.split
    exact hb.remains hs hl
  run := by
    rintro before ⟨phase, call⟩ after environment command directory answer rfl hv
    obtain ⟨q, hb, hs, -⟩ := hc.split
    dsimp only at hv hb hs
    subst hv
    cases hs with
    | ran => exact hb.exists_preview
  unskipped := by
    rintro before ⟨phase, call⟩ after prompt line ms command rfl hv hn
    obtain ⟨q, -, hs, ha⟩ := hc.split
    dsimp only at hv hs
    subst hv
    cases hs with
    | blank hb => rw [hn] at hb; cases hb
    | chosen =>
      cases after with
      | nil =>
        -- a course does not end before the command that was chosen has run
        generalize he : ([] : List Visit) = us at ha
        cases ha with
        | start => cases hr
        | step => simp at he
      | cons w later =>
        obtain ⟨-, q, hs⟩ := ha.head
        generalize hw : w.call = call at hs
        cases hs with
        | ran answer => exact ⟨w, later, answer, rfl, hw⟩
  stop := by
    rintro before v after rfl hv
    obtain ⟨q, -, hs, ha⟩ := hc.split
    obtain ⟨result, rfl⟩ := hs.ended_of_stops hv
    exact ha.eq_nil_of_ended

/-- What the work on a request runs, for every system and every service and whatever they answer:
the calls of a run are those of a course that ends with the result of the run, each command that is
run is the next line of the latest batch as the user left it, no line is passed over but by the user,
and nothing happens after a success or a failure. -/
theorem carryOut_faithful (h : Host σ) (e : Errand) (a : Assistant σ) (s : σ) :
    ∃ vs p, Course e a .opening vs p ∧ p.result? = some (e.carryOut h a s).1.1 ∧
      e.carryOut h.recorded a.recorded ⟨s, []⟩ =
        (((e.carryOut h a s).1.1, (e.carryOut h a s).1.2.recorded),
          ⟨(e.carryOut h a s).2, vs.map Visit.call⟩) ∧
      Faithful e vs := by
  obtain ⟨vs, p, hc, hr, hy⟩ := exists_course h (e := e) a s []
  rw [List.nil_append] at hy
  exact ⟨vs, p, hc, hr, hy, hc.faithful hr⟩

end AssistedShell.Errand
