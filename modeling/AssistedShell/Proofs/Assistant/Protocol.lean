import AssistedShell.Assistant.FollowUp
import AssistedShell.Proofs.Host.Recording

/-! The work on a request as a course of calls. Before each call the work is in
a phase, which says what may be called next and, with the answer, what phase
comes after. A move is such a call with what it does to the assistant and the
system. Every run, whatever the system and the service answer, is made of moves:
the calls recorded are those of a course, and the phase in which it ends has the
result of the run. What a run does follows from what a move does. -/

namespace AssistedShell

variable {σ : Type}

/-! ### Requests of one assistant -/

namespace Assistant

/-- Whether two assistants ask the same service under the same terms. What was said to them may
differ. -/
structure Like (a b : Assistant σ) : Prop where
  service : b.service = a.service
  instructions : b.instructions = a.instructions
  entryLimit : b.conversation.entryLimit = a.conversation.entryLimit
  byteLimit : b.conversation.byteLimit = a.conversation.byteLimit

theorem Like.refl (a : Assistant σ) : a.Like a := ⟨rfl, rfl, rfl, rfl⟩

variable {a b : Assistant σ}

theorem Like.record (hb : a.Like b) (origin : Origin) (text : String) :
    a.Like (b.record origin text) := ⟨hb.1, hb.2, hb.3, hb.4⟩

theorem Like.setActing (hb : a.Like b) (acting : Bool) : a.Like (b.setActing acting) :=
  ⟨hb.1, hb.2, hb.3, hb.4⟩

theorem Like.hear (hb : a.Like b) (answer : Except CompletionFault String) :
    a.Like (b.hear answer) := by
  cases answer with
  | error f => exact hb
  | ok reply => exact ⟨hb.1, hb.2, hb.3, hb.4⟩

theorem Like.of_request {b' : Assistant σ} {text : String} {s s' : σ}
    {answer : Except CompletionFault String} (hb : a.Like b)
    (hr : b.request text s = ((answer, b'), s')) : a.Like b' := by
  rw [request_eq, Prod.mk.injEq, Prod.mk.injEq] at hr
  obtain ⟨⟨-, rfl⟩, -⟩ := hr
  exact (hb.record .user text).hear _

/-- Whether a request says a text, after whatever was said before. -/
def Says (a : Assistant σ) (text : String) (request : CompletionRequest) : Prop :=
  ∃ b, a.Like b ∧ request = b.asking text

theorem Like.says (hb : a.Like b) (text : String) : a.Says text (b.asking text) := ⟨b, hb, rfl⟩

end Assistant

namespace Errand

/-! ### Phases -/

/-- Where the work on a request is. All but the first and the last hold the commands that are
left and the number of follow-up requests sent so far. -/
inductive Phase where
  /-- Nothing has been asked. -/
  | opening
  /-- The first of the commands is to be shown. -/
  | queued (queue : List String) (attempts : Nat)
  /-- The user has decided to run a command. -/
  | chosen (command : String) (queue : List String) (attempts : Nat)
  /-- A command has run, and what it wrote is to be shown. -/
  | ran (output : String) (queue : List String) (attempts : Nat)
  /-- What a command wrote is to be analysed. -/
  | shown (output : String) (queue : List String) (attempts : Nat)
  /-- The analysis found fault, and better commands are to be asked for. -/
  | analysed (output analysis : String) (queue : List String) (attempts : Nat)
  | ended (result : Except AssistantFault Outcome)

/-- The result of work that ends in a phase. -/
def Phase.result? : Phase → Option (Except AssistantFault Outcome)
  | .queued [] attempts => some (.ok ⟨.unresolved, attempts⟩)
  | .ended result => some result
  | _ => none

/-- What is shown for a command: what it wrote, or why it could not be run. -/
def outputOf (command : String) : Except Fault Captured → String
  | .ok captured => captured.text
  | .error f => "ghsh: " ++ command ++ ": " ++ f.message ++ "\n"

/-- What may be called in a phase, and the phase after it. -/
inductive Step (e : Errand) (a : Assistant σ) : Phase → Call → Phase → Prop where
  | refused {q f} : a.Says e.request q →
      Step e a .opening (.ask q (.error f)) (.ended (.error (.request f)))
  | told {q reply} : a.Says e.request q →
      Step e a .opening (.ask q (.ok reply)) (.queued (Reply.commands reply) 0)
  | unseen {candidate queue n f} :
      Step e a (.queued (candidate :: queue) n)
        (.preview e.prompt candidate e.previewMs (.error f)) (.ended (.error (.terminal f)))
  | cancelled {candidate queue n} :
      Step e a (.queued (candidate :: queue) n)
        (.preview e.prompt candidate e.previewMs (.ok .cancelled)) (.queued queue n)
  | blank {candidate queue n command} : command.isAllBlank = true →
      Step e a (.queued (candidate :: queue) n)
        (.preview e.prompt candidate e.previewMs (.ok (.run command))) (.queued queue n)
  | chosen {candidate queue n command} : command.isAllBlank = false →
      Step e a (.queued (candidate :: queue) n)
        (.preview e.prompt candidate e.previewMs (.ok (.run command)))
        (.chosen command queue n)
  | ran {command queue n} (answer : Except Fault Captured) :
      Step e a (.chosen command queue n) (.capture e.environment command e.directory answer)
        (.ran (outputOf command answer) queue n)
  | unwritten {output queue n f} :
      Step e a (.ran output queue n) (.writeOut output (.error f)) (.ended (.error (.terminal f)))
  | shown {output queue n} :
      Step e a (.ran output queue n) (.writeOut output (.ok ())) (.shown output queue n)
  | unanalysed {output queue n q f} : a.Says (Prompts.analysis e.request output) q →
      Step e a (.shown output queue n) (.ask q (.error f)) (.ended (.error (.request f)))
  | fulfilled {output queue n q reply} : a.Says (Prompts.analysis e.request output) q →
      Prompts.isSuccess reply = true →
      Step e a (.shown output queue n) (.ask q (.ok reply)) (.ended (.ok ⟨.success, n⟩))
  | exhausted {output queue n q reply} : a.Says (Prompts.analysis e.request output) q →
      Prompts.isSuccess reply = false → e.limit ≤ n →
      Step e a (.shown output queue n) (.ask q (.ok reply)) (.ended (.ok ⟨.exhausted, n⟩))
  | analysed {output queue n q reply} : a.Says (Prompts.analysis e.request output) q →
      Prompts.isSuccess reply = false → n < e.limit →
      Step e a (.shown output queue n) (.ask q (.ok reply)) (.analysed output reply queue n)
  | unhelped {output analysis queue n q f} :
      a.Says (Prompts.followUp e.request output analysis) q →
      Step e a (.analysed output analysis queue n) (.ask q (.error f))
        (.ended (.error (.request f)))
  | corrected {output analysis queue n q reply} :
      a.Says (Prompts.followUp e.request output analysis) q → Prompts.isSuccess reply = true →
      Step e a (.analysed output analysis queue n) (.ask q (.ok reply))
        (.ended (.ok ⟨.success, n + 1⟩))
  | followed {output analysis queue n q reply} :
      a.Says (Prompts.followUp e.request output analysis) q → Prompts.isSuccess reply = false →
      Step e a (.analysed output analysis queue n) (.ask q (.ok reply))
        (.queued (next queue reply) (n + 1))

/-! ### Courses -/

/-- A call and the phase in which it is made. -/
structure Visit where
  phase : Phase
  call : Call

/-- The calls between two phases, in their order. -/
inductive Course (e : Errand) (a : Assistant σ) (p : Phase) : List Visit → Phase → Prop where
  | start : Course e a p [] p
  | step {vs q call r} : Course e a p vs q → Step e a q call r →
      Course e a p (vs ++ [⟨q, call⟩]) r

theorem Course.cons {e : Errand} {a : Assistant σ} {p q r : Phase} {call : Call}
    {vs : List Visit} (hs : Step e a p call q) (hc : Course e a q vs r) :
    Course e a p (⟨p, call⟩ :: vs) r := by
  induction hc with
  | start => exact Course.start.step hs
  | step _ hs' ih => exact ih.step hs'

/-! ### Moves -/

/-- Where the work on a request stands. -/
structure Standing (σ : Type) where
  phase : Phase
  assistant : Assistant σ
  system : σ

/-- A call that may be made where the work stands, and what it does to the assistant and the
system. The assistant is told what a command wrote when that has been shown, and before a request
whether commands are wanted. -/
inductive Move (h : Host σ) (e : Errand) (a : Assistant σ) :
    Standing σ → Call → Standing σ → Prop where
  | preview {p q b s t line answer} : h.preview e.prompt line e.previewMs s = (answer, t) →
      Step e a p (.preview e.prompt line e.previewMs answer) q →
      Move h e a ⟨p, b, s⟩ (.preview e.prompt line e.previewMs answer) ⟨q, b, t⟩
  | capture {p q b s t command answer} :
      h.capture e.environment command e.directory s = (answer, t) →
      Step e a p (.capture e.environment command e.directory answer) q →
      Move h e a ⟨p, b, s⟩ (.capture e.environment command e.directory answer) ⟨q, b, t⟩
  | unwritten {p q b s t output f} : h.writeOut output s = (.error f, t) →
      Step e a p (.writeOut output (.error f)) q →
      Move h e a ⟨p, b, s⟩ (.writeOut output (.error f)) ⟨q, b, t⟩
  | shown {p q b s t output} : h.writeOut output s = (.ok (), t) →
      Step e a p (.writeOut output (.ok ())) q →
      Move h e a ⟨p, b, s⟩ (.writeOut output (.ok ())) ⟨q, b.record .commandOutput output, t⟩
  | ask {p q b c s t text answer} (acting : Bool) :
      (b.setActing acting).request text s = ((answer, c), t) →
      Step e a p (.ask (b.asking text) answer) q →
      Move h e a ⟨p, b, s⟩ (.ask (b.asking text) answer) ⟨q, c, t⟩

/-- The calls between two standings, in their order. -/
inductive Moves (h : Host σ) (e : Errand) (a : Assistant σ) :
    Standing σ → List Visit → Standing σ → Prop where
  | start {x} : Moves h e a x [] x
  | step {x call y vs z} : Move h e a x call y → Moves h e a y vs z →
      Moves h e a x (⟨x.phase, call⟩ :: vs) z

variable {h : Host σ} {e : Errand} {a : Assistant σ} {x y : Standing σ} {call : Call}
  {vs : List Visit} {log : List Call}

theorem Move.step (hm : Move h e a x call y) : Step e a x.phase call y.phase := by
  cases hm with
  | preview _ hs | capture _ hs | unwritten _ hs | shown _ hs | ask _ _ hs => exact hs

theorem Moves.course (hm : Moves h e a x vs y) : Course e a x.phase vs y.phase := by
  induction hm with
  | start => exact .start
  | step hm _ ih => exact ih.cons hm.step

/-- Whether a run from a standing, and the same run on the system that records, make moves: they
come to a standing that has the result of the run, and their calls are added to the record. -/
def Tracks (h : Host σ) (e : Errand) (a : Assistant σ) (x : Standing σ) (log : List Call)
    (r : (Except AssistantFault Outcome × Assistant σ) × σ)
    (r' : (Except AssistantFault Outcome × Assistant (Recorded σ)) × Recorded σ) : Prop :=
  ∃ vs y result, Moves h e a x vs y ∧ y.phase.result? = some result ∧
    r = ((result, y.assistant), y.system) ∧
    r' = ((result, y.assistant.recorded), ⟨y.system, log ++ vs.map Visit.call⟩)

theorem Tracks.stop {result : Except AssistantFault Outcome} (hr : x.phase.result? = some result) :
    Tracks h e a x log ((result, x.assistant), x.system)
      ((result, x.assistant.recorded), ⟨x.system, log⟩) :=
  ⟨[], x, result, .start, hr, rfl, by simp⟩

theorem Tracks.step {r : (Except AssistantFault Outcome × Assistant σ) × σ}
    {r' : (Except AssistantFault Outcome × Assistant (Recorded σ)) × Recorded σ}
    (hm : Move h e a x call y) (ht : Tracks h e a y (log ++ [call]) r r') :
    Tracks h e a x log r r' := by
  obtain ⟨vs, z, result, hms, hr, rfl, rfl⟩ := ht
  refine ⟨⟨x.phase, call⟩ :: vs, z, result, .step hm hms, hr, rfl, ?_⟩
  rw [List.map_cons, List.append_assoc, List.singleton_append]

/-! ### Runs -/

variable (h)

theorem run_eq (command : String) (s : σ) :
    e.run h command s =
      (outputOf command (h.capture e.environment command e.directory s).1,
        (h.capture e.environment command e.directory s).2) := by
  rw [run]
  rcases h.capture e.environment command e.directory s with ⟨f | captured, s'⟩
  · rfl
  · rfl

/-- What is left of the commands is worked off in moves. -/
theorem work_tracks (queue : List String) (n : Nat) {b : Assistant σ} (hb : a.Like b) (s : σ)
    (log : List Call) :
    Tracks h e a ⟨.queued queue n, b, s⟩ log (e.work h queue n b s)
      (e.work h.recorded queue n b.recorded ⟨s, log⟩) := by
  match queue with
  | [] =>
    rw [work, work]
    exact .stop rfl
  | candidate :: queue =>
    rw [work, work]
    rcases hp : h.preview e.prompt candidate e.previewMs s with ⟨f | command | _, s₁⟩
    all_goals rw [Host.preview_recorded log hp]
    · exact .step (.preview hp .unseen) (.stop rfl)
    · by_cases hblank : command.isAllBlank
      · simp only [if_pos hblank]
        exact .step (.preview hp (.blank hblank)) (work_tracks queue n hb s₁ _)
      simp only [if_neg hblank, run_eq]
      refine .step (.preview hp (.chosen (Bool.eq_false_iff.mpr hblank))) ?_
      rcases hc : h.capture e.environment command e.directory s₁ with ⟨answer, s₂⟩
      rw [Host.capture_recorded _ hc]
      refine .step (.capture hc (.ran answer)) ?_
      dsimp only
      generalize outputOf command answer = output
      rcases hw : h.writeOut output s₂ with ⟨f | _, s₃⟩
      all_goals rw [Host.writeOut_recorded _ hw]
      · exact .step (.unwritten hw .unwritten) (.stop rfl)
      refine .step (.shown hw .shown) ?_
      dsimp only
      rw [Assistant.recorded_record, Assistant.recorded_setActing]
      have hb₁ := hb.record .commandOutput output
      have hq₁ := hb₁.says (Prompts.analysis e.request output)
      rcases ha : Assistant.request _ (Prompts.analysis e.request output) s₃ with
        ⟨⟨f | analysis, b₂⟩, s₄⟩
      all_goals rw [Assistant.request_recorded _ ha]
      · exact .step (.ask false ha (.unanalysed hq₁)) (.stop rfl)
      dsimp only
      by_cases hyes : Prompts.isSuccess analysis
      · rw [if_pos hyes, if_pos hyes]
        exact .step (.ask false ha (.fulfilled hq₁ hyes)) (.stop rfl)
      rw [if_neg hyes, if_neg hyes]
      rw [Bool.not_eq_true] at hyes
      by_cases hlim : e.limit ≤ n
      · rw [if_pos hlim, if_pos hlim]
        exact .step (.ask false ha (.exhausted hq₁ hyes hlim)) (.stop rfl)
      rw [if_neg hlim, if_neg hlim, Assistant.recorded_setActing]
      refine .step (.ask false ha (.analysed hq₁ hyes (Nat.lt_of_not_le hlim))) ?_
      have hb₂ := (hb₁.setActing false).of_request ha
      have hq₂ := hb₂.says (Prompts.followUp e.request output analysis)
      rcases hf : Assistant.request _ (Prompts.followUp e.request output analysis) s₄ with
        ⟨⟨f | reply, b₃⟩, s₅⟩
      all_goals rw [Assistant.request_recorded _ hf]
      · exact .step (.ask true hf (.unhelped hq₂)) (.stop rfl)
      dsimp only
      by_cases hyes₂ : Prompts.isSuccess reply
      · rw [if_pos hyes₂, if_pos hyes₂]
        exact .step (.ask true hf (.corrected hq₂ hyes₂)) (.stop rfl)
      rw [if_neg hyes₂, if_neg hyes₂]
      rw [Bool.not_eq_true] at hyes₂
      exact .step (.ask true hf (.followed hq₂ hyes₂))
        (work_tracks (next queue reply) (n + 1) ((hb₂.setActing true).of_request hf) s₅ _)
    · exact .step (.preview hp .cancelled) (work_tracks queue n hb s₁ _)
-- a command that is not run shortens the queue; only a counted follow-up request refills it
termination_by (e.limit - n, queue.length)
decreasing_by
  all_goals simp_wf
  · exact Prod.Lex.right _ (by simp)
  · exact Prod.Lex.left _ _ (by omega)
  · exact Prod.Lex.right _ (by simp)

/-- The work on a request makes moves, from its opening on. -/
theorem carryOut_tracks (a : Assistant σ) (s : σ) (log : List Call) :
    Tracks h e a ⟨.opening, a, s⟩ log (e.carryOut h a s)
      (e.carryOut h.recorded a.recorded ⟨s, log⟩) := by
  rw [carryOut, carryOut, Assistant.recorded_setActing]
  have ha := Assistant.Like.refl a
  have hq := ha.says e.request
  rcases hr : (a.setActing true).request e.request s with ⟨⟨f | reply, b⟩, s₁⟩
  all_goals rw [Assistant.request_recorded _ hr]
  · exact .step (.ask true hr (.refused hq)) (.stop rfl)
  · exact .step (.ask true hr (.told hq))
      (work_tracks h (Reply.commands reply) 0 ((ha.setActing true).of_request hr) s₁ _)

/-- The calls of the work on a request are those of a course that ends with its result. -/
theorem exists_course (a : Assistant σ) (s : σ) (log : List Call) :
    ∃ vs q, Course e a .opening vs q ∧ q.result? = some (e.carryOut h a s).1.1 ∧
      e.carryOut h.recorded a.recorded ⟨s, log⟩ =
        (((e.carryOut h a s).1.1, (e.carryOut h a s).1.2.recorded),
          ⟨(e.carryOut h a s).2, log ++ vs.map Visit.call⟩) := by
  obtain ⟨vs, y, result, hm, hr, hx, hy⟩ := carryOut_tracks h (e := e) a s log
  rw [hx, hy]
  exact ⟨vs, y.phase, hm.course, hr, rfl⟩

end Errand

end AssistedShell
