import AssistedShell.Proofs.Assistant.Protocol
import AssistedShell.Proofs.Assistant.Window

/-! How an assistant changes at work. It is the same assistant afterwards, asks
the same service under the same terms, and its conversation was added to:
each request with its reply, and what the commands wrote that were run for it.
Nothing is taken out but what the window no longer holds. -/

namespace AssistedShell

variable {σ ρ : Type}

namespace Assistant

/-- How an assistant changes along some calls. A call to its service adds what was asked, and the
reply if there is one; a command whose output was shown may add that output; no other call changes
the assistant. -/
inductive Grows (a : Assistant σ) : List Call → Assistant σ → Prop where
  | start : Grows a [] a
  | turned {calls b} (acting : Bool) : Grows a calls b → Grows a calls (b.setActing acting)
  | asked {calls b} (text : String) (answer : Except CompletionFault String) : Grows a calls b →
      Grows a (calls ++ [.ask (b.asking text) answer]) ((b.record .user text).hear answer)
  | shown {calls b} (env : Environment) (command dir : String) (answer : Except Fault Captured) :
      Grows a calls b →
      Grows a
        (calls ++ [.capture env command dir answer,
          .writeOut (Errand.outputOf command answer) (.ok ())])
        (b.record .commandOutput (Errand.outputOf command answer))
  | passed {calls b call} : call.isAsk = false → Grows a calls b → Grows a (calls ++ [call]) b

/-- Whether an assistant is another one to which more was said. -/
structure Extended (a b : Assistant σ) : Prop where
  like : a.Like b
  appended : ∃ said : List Saying,
    b.conversation = (said.map .append).foldl Conversation.Operation.run a.conversation

variable {a b c : Assistant σ} {calls calls' : List Call}

theorem Grows.trans (hab : a.Grows calls b) (hbc : b.Grows calls' c) :
    a.Grows (calls ++ calls') c := by
  induction hbc with
  | start => rwa [List.append_nil]
  | turned acting _ ih => exact ih.turned acting
  | asked text answer _ ih =>
    rw [← List.append_assoc]
    exact ih.asked text answer
  | shown env command dir answer _ ih =>
    rw [← List.append_assoc]
    exact ih.shown env command dir answer
  | passed hc _ ih =>
    rw [← List.append_assoc]
    exact ih.passed hc

theorem Extended.refl (a : Assistant σ) : a.Extended a := ⟨.refl a, [], rfl⟩

theorem Extended.trans (hab : a.Extended b) (hbc : b.Extended c) : a.Extended c := by
  obtain ⟨said, hs⟩ := hab.appended
  obtain ⟨said', hs'⟩ := hbc.appended
  refine ⟨⟨hbc.like.1.trans hab.like.1, hbc.like.2.trans hab.like.2, hbc.like.3.trans hab.like.3,
    hbc.like.4.trans hab.like.4⟩, said ++ said', ?_⟩
  rw [hs', hs, List.map_append, List.foldl_append]

theorem extended_record (a : Assistant σ) (origin : Origin) (text : String) :
    a.Extended (a.record origin text) := ⟨(Like.refl a).record origin text, [(origin, text)], rfl⟩

theorem extended_hear (a : Assistant σ) (answer : Except CompletionFault String) :
    a.Extended (a.hear answer) := by
  cases answer with
  | error f => exact .refl a
  | ok reply => exact ⟨(Like.refl a).hear (.ok reply), [(.assistant, reply)], rfl⟩

theorem Grows.extended (hg : a.Grows calls b) : a.Extended b := by
  induction hg with
  | start => exact .refl a
  | turned acting _ ih => exact ⟨ih.like.setActing acting, ih.appended⟩
  | @asked _ b text answer _ ih =>
    exact (ih.trans (extended_record b .user text)).trans (extended_hear _ answer)
  | @shown _ b _ command _ answer _ ih => exact ih.trans (extended_record b .commandOutput _)
  | passed _ _ ih => exact ih

/-! ### Runs -/

/-- A request is a call, after which the assistant has heard the answer. -/
theorem Grows.ask {text : String} {s s' : σ} {answer : Except CompletionFault String}
    (hg : a.Grows calls b) (hr : b.request text s = ((answer, c), s')) :
    a.Grows (calls ++ [.ask (b.asking text) answer]) c := by
  rw [request_eq, Prod.mk.injEq, Prod.mk.injEq] at hr
  obtain ⟨⟨rfl, rfl⟩, -⟩ := hr
  exact hg.asked text _

/-- Whether a run with an assistant, and the same run on the system that records, make the assistant
grow along the calls that are added to the record. -/
def Grown (a : Assistant σ) (log : List Call) (x : (ρ × Assistant σ) × σ)
    (y : (ρ × Assistant (Recorded σ)) × Recorded σ) : Prop :=
  ∃ calls, a.Grows calls x.1.2 ∧ y = ((x.1.1, x.1.2.recorded), ⟨x.2, log ++ calls⟩)

theorem request_grown (a : Assistant σ) (text : String) (s : σ) (log : List Call) :
    Grown a log (a.request text s) (a.recorded.request text ⟨s, log⟩) := by
  rcases hr : a.request text s with ⟨⟨answer, b⟩, s'⟩
  exact ⟨_, Grows.start.ask hr, request_recorded log hr⟩

end Assistant

namespace Errand

variable {h : Host σ} {e : Errand} {a b : Assistant σ} {x y : Standing σ} {calls : List Call}
  {call : Call} {vs : List Visit}

/-- Whether an assistant has grown along some calls into the one where the work stands. It is told
what a command wrote only when that has been shown; until then the command's call is the last. -/
def Grew (a : Assistant σ) (calls : List Call) (x : Standing σ) : Prop :=
  match x.phase with
  | .ran output _ _ => ∃ before env command dir answer,
      calls = before ++ [.capture env command dir answer] ∧ output = outputOf command answer ∧
        a.Grows before x.assistant
  | _ => a.Grows calls x.assistant

theorem Move.grew (hm : Move h e b x call y) (hx : Grew a calls x) :
    Grew a (calls ++ [call]) y := by
  cases hm with
  | preview _ hs =>
    cases hs with
    | unseen | cancelled | blank | chosen => exact Assistant.Grows.passed rfl hx
  | capture _ hs =>
    cases hs with
    | ran => exact ⟨calls, _, _, _, _, rfl, rfl, hx⟩
  | unwritten _ hs =>
    cases hs with
    | unwritten =>
      obtain ⟨before, env, command, dir, answer, rfl, rfl, hg⟩ := hx
      exact (hg.passed rfl).passed rfl
  | shown _ hs =>
    cases hs with
    | shown =>
      obtain ⟨before, env, command, dir, answer, rfl, rfl, hg⟩ := hx
      rw [List.append_assoc]
      exact hg.shown env command dir answer
  | ask acting hr hs =>
    cases hs with
    | _ => exact (Assistant.Grows.turned acting hx).ask hr

theorem Moves.grew (hm : Moves h e b x vs y) (hx : Grew a calls x) :
    Grew a (calls ++ vs.map Visit.call) y := by
  induction hm generalizing calls with
  | start => rwa [List.map_nil, List.append_nil]
  | step hm _ ih =>
    rw [List.map_cons, List.append_cons]
    exact ih (hm.grew hx)

/-- Where the work has a result, the assistant has grown along all its calls. -/
theorem Grew.grows {result : Except AssistantFault Outcome} (hx : Grew a calls x)
    (hr : x.phase.result? = some result) : a.Grows calls x.assistant := by
  rw [Grew] at hx
  split at hx
  case _ output queue n hp =>
    rw [hp] at hr
    cases hr
  · exact hx

/-- The work on a request makes the assistant grow. -/
theorem carryOut_grown (h : Host σ) (a : Assistant σ) (s : σ) (log : List Call) :
    Assistant.Grown a log (e.carryOut h a s) (e.carryOut h.recorded a.recorded ⟨s, log⟩) := by
  obtain ⟨vs, y, result, hm, hr, hx, hy⟩ := carryOut_tracks h (e := e) a s log
  have hg : Grew a ([] ++ vs.map Visit.call) y := hm.grew Assistant.Grows.start
  rw [hx, hy]
  exact ⟨_, hg.grows hr, rfl⟩

end Errand

end AssistedShell
