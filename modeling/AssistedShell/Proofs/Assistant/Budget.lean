import AssistedShell.Proofs.Assistant.Protocol
import Mathlib.Algebra.GroupWithZero.Nat

/-! What the work on a request costs at most. The phase of a course fixes how
many requests were sent and how many commands were run to get there, so the
counts at the end follow from the last step alone. Commands that are shown and
not run cost neither, but each of them was suggested. -/

namespace AssistedShell.Errand

variable {σ : Type} {e : Errand} {a : Assistant σ} {p q : Phase} {vs : List Visit}

/-! ### Counts -/

/-- The number of follow-up requests sent before a phase. -/
def Phase.attempts : Phase → Nat
  | .queued _ n | .chosen _ _ n | .ran _ _ n | .shown _ _ n | .analysed _ _ _ n => n
  | .opening | .ended _ => 0

def Phase.isAnalysed : Phase → Bool
  | .analysed .. => true
  | _ => false

/-- Whether a visit asks for better commands. -/
def Visit.followsUp (v : Visit) : Bool := v.phase.isAnalysed && v.call.isAsk

/-- The commands that are suggested at a visit. -/
def Visit.suggested : Visit → List String
  | ⟨.opening, .ask _ (.ok reply)⟩ => Reply.commands reply
  | ⟨.analysed .., .ask _ (.ok reply)⟩ => Reply.commands reply
  | _ => []

/-- The number of requests to the service. -/
def requests (vs : List Visit) : Nat := vs.countP (·.call.isAsk)

/-- The number of commands run. -/
def executions (vs : List Visit) : Nat := vs.countP (·.call.isCapture)

/-- The number of follow-up requests. -/
def followUps (vs : List Visit) : Nat := vs.countP Visit.followsUp

/-- The number of commands suggested. -/
def suggestions (vs : List Visit) : Nat := (vs.map (·.suggested.length)).sum

@[simp] theorem requests_concat (v : Visit) :
    requests (vs ++ [v]) = requests vs + if v.call.isAsk then 1 else 0 := by
  simp [requests, List.countP_cons]

@[simp] theorem executions_concat (v : Visit) :
    executions (vs ++ [v]) = executions vs + if v.call.isCapture then 1 else 0 := by
  simp [executions, List.countP_cons]

@[simp] theorem followUps_concat (v : Visit) :
    followUps (vs ++ [v]) = followUps vs + if v.followsUp then 1 else 0 := by
  simp [followUps, List.countP_cons]

@[simp] theorem suggestions_concat (v : Visit) :
    suggestions (vs ++ [v]) = suggestions vs + v.suggested.length := by
  simp [suggestions]

/-- The counts of requests, of commands run and of follow-up requests. -/
structure Tally (vs : List Visit) (asked run further : Nat) : Prop where
  requests : requests vs = asked
  executions : executions vs = run
  followUps : followUps vs = further

/-- The number of visits, with the commands that are left, against the commands suggested and the
visits that are no previews. -/
def Paid (vs : List Visit) (queue : List String) (others : Nat) : Prop :=
  vs.length + queue.length ≤ suggestions vs + others

/-- What was counted when a course reaches a phase. -/
def Fits (e : Errand) (vs : List Visit) : Phase → Prop
  | .opening => Tally vs 0 0 0 ∧ Paid vs [] 0
  | .queued queue n => n ≤ e.limit ∧ Tally vs (2 * n + 1) n n ∧ Paid vs queue (4 * n + 1)
  | .chosen _ queue n => n ≤ e.limit ∧ Tally vs (2 * n + 1) n n ∧ Paid vs queue (4 * n + 1)
  | .ran _ queue n => n ≤ e.limit ∧ Tally vs (2 * n + 1) (n + 1) n ∧ Paid vs queue (4 * n + 2)
  | .shown _ queue n => n ≤ e.limit ∧ Tally vs (2 * n + 1) (n + 1) n ∧ Paid vs queue (4 * n + 3)
  | .analysed _ _ queue n =>
    n < e.limit ∧ Tally vs (2 * n + 2) (n + 1) n ∧ Paid vs queue (4 * n + 4)
  | .ended _ => True

variable {limit asked run further others : Nat} {queue : List String}

/-! ### One step -/

theorem Tally.concat (ht : Tally vs asked run further) (v : Visit) :
    Tally (vs ++ [v]) (asked + if v.call.isAsk then 1 else 0)
      (run + if v.call.isCapture then 1 else 0) (further + if v.followsUp then 1 else 0) where
  requests := by rw [requests_concat, ht.requests]
  executions := by rw [executions_concat, ht.executions]
  followUps := by rw [followUps_concat, ht.followUps]

theorem Tally.pass (ht : Tally vs asked run further) {v : Visit}
    (ha : v.call.isAsk = false) (hc : v.call.isCapture = false) :
    Tally (vs ++ [v]) asked run further := by
  simpa [Visit.followsUp, ha, hc] using ht.concat v

theorem Tally.ask (ht : Tally vs asked run further) {v : Visit}
    (hp : v.phase.isAnalysed = false) (ha : v.call.isAsk = true)
    (hc : v.call.isCapture = false) : Tally (vs ++ [v]) (asked + 1) run further := by
  simpa [Visit.followsUp, hp, ha, hc] using ht.concat v

theorem Tally.follow (ht : Tally vs asked run further) {v : Visit}
    (hp : v.phase.isAnalysed = true) (ha : v.call.isAsk = true)
    (hc : v.call.isCapture = false) : Tally (vs ++ [v]) (asked + 1) run (further + 1) := by
  simpa [Visit.followsUp, hp, ha, hc] using ht.concat v

theorem Paid.concat {queue' : List String} {others' : Nat} (hp : Paid vs queue others) (v : Visit)
    (hq : queue'.length + others + 1 ≤ queue.length + v.suggested.length + others') :
    Paid (vs ++ [v]) queue' others' := by
  rw [Paid] at hp ⊢
  rw [suggestions_concat, List.length_append, List.length_singleton]
  omega

theorem Paid.succ (hp : Paid vs queue others) (v : Visit) :
    Paid (vs ++ [v]) queue (others + 1) := hp.concat v (by omega)

theorem length_next_le (queue : List String) (reply : String) :
    (next queue reply).length ≤ queue.length + (Reply.commands reply).length := by
  rw [next]
  split
  · omega
  · omega

theorem Step.fits {call : Call} (hs : Step e a p call q) (hf : Fits e vs p) :
    Fits e (vs ++ [⟨p, call⟩]) q := by
  cases hs with
  | refused | unseen | unwritten | unanalysed | fulfilled | exhausted | unhelped | corrected =>
    trivial
  | told =>
    obtain ⟨ht, hp⟩ := hf
    exact ⟨Nat.zero_le _, ht.concat _, hp.concat _ (by simp [Visit.suggested])⟩
  | cancelled | blank | chosen =>
    obtain ⟨hn, ht, hp⟩ := hf
    refine ⟨hn, ht.concat _, hp.concat _ ?_⟩
    rw [List.length_cons]
    omega
  | ran | shown =>
    obtain ⟨hn, ht, hp⟩ := hf
    exact ⟨hn, ht.concat _, hp.succ _⟩
  | analysed _ _ hlt =>
    obtain ⟨-, ht, hp⟩ := hf
    exact ⟨hlt, ht.concat _, hp.succ _⟩
  | @followed _ _ queue n _ reply =>
    obtain ⟨hn, ht, hp⟩ := hf
    refine ⟨hn, ht.concat _, hp.concat _ ?_⟩
    have hl := length_next_le queue reply
    simp only [Visit.suggested]
    omega

/-! ### Whole courses -/

theorem Course.fits (hc : Course e a .opening vs p) : Fits e vs p := by
  induction hc with
  | start => exact ⟨⟨rfl, rfl, rfl⟩, Nat.le_refl _⟩
  | step _ hs ih => exact hs.fits ih

theorem Fits.attempts_lt (hf : Fits e vs p) (hp : p.isAnalysed = true) :
    p.attempts < e.limit := by
  cases p with
  | analysed => exact hf.1
  | _ => cases hp

/-- When a follow-up request is sent, the limit is not reached. -/
theorem Course.attempts_lt (hc : Course e a .opening vs p) :
    ∀ v ∈ vs, v.followsUp = true → v.phase.attempts < e.limit := by
  induction hc with
  | start => simp
  | @step vs q call r hc hs ih =>
    intro v hv hf
    rcases List.mem_append.mp hv with hv | hv
    · exact ih v hv hf
    · obtain rfl := List.mem_singleton.mp hv
      rw [Visit.followsUp, Bool.and_eq_true] at hf
      exact hc.fits.attempts_lt hf.1

/-- How the numbers of commands run and of follow-up requests agree with a verdict. -/
def Agrees (limit : Nat) (vs : List Visit) (run further : Nat) : Verdict → Prop
  | .success => ∃ v request reply, vs.getLast? = some v ∧ v.call = .ask request (.ok reply) ∧
      Prompts.isSuccess reply = true ∧
      (v.phase.isAnalysed = false ∧ run = further + 1 ∨
        v.phase.isAnalysed = true ∧ run = further)
  | .unresolved => run = further
  | .exhausted => further = limit ∧ run = further + 1

/-- The counts of work that ends with a result. -/
structure Settled (limit : Nat) (vs : List Visit) (result : Except AssistantFault Outcome) :
    Prop where
  followUps_le : followUps vs ≤ limit
  executions_le : executions vs ≤ limit + 1
  requests_le : requests vs ≤ 2 * limit + 2
  /-- Each command that is suggested is shown at most once. -/
  length_le : vs.length ≤ suggestions vs + 4 * limit + 4
  requests_eq : ∀ o, result = .ok o → requests vs = 1 + executions vs + followUps vs
  attempts_eq : ∀ o, result = .ok o → o.attempts = followUps vs
  agrees : ∀ o, result = .ok o → Agrees limit vs (executions vs) (followUps vs) o.verdict

theorem Tally.failed (ht : Tally vs asked run further) (hp : Paid vs queue others)
    (hf : further ≤ limit) (hr : run ≤ limit + 1) (hq : asked ≤ 2 * limit + 2)
    (ho : others ≤ 4 * limit + 4) (f : AssistantFault) : Settled limit vs (.error f) where
  followUps_le := by rw [ht.followUps]; exact hf
  executions_le := by rw [ht.executions]; exact hr
  requests_le := by rw [ht.requests]; exact hq
  length_le := by
    rw [Paid] at hp
    omega
  requests_eq := nofun
  attempts_eq := nofun
  agrees := nofun

theorem Tally.settled (ht : Tally vs asked run further) (hp : Paid vs queue others)
    (hf : further ≤ limit) (hr : run ≤ limit + 1) (ho : others ≤ 4 * limit + 4)
    (hq : asked = 1 + run + further) {v : Verdict} (ha : Agrees limit vs run further v) :
    Settled limit vs (.ok ⟨v, further⟩) where
  followUps_le := by rw [ht.followUps]; exact hf
  executions_le := by rw [ht.executions]; exact hr
  requests_le := by
    rw [ht.requests]
    omega
  length_le := by
    rw [Paid] at hp
    omega
  requests_eq := by
    intro o _
    rw [ht.requests, ht.executions, ht.followUps]
    exact hq
  attempts_eq := by
    rintro o ⟨⟩
    exact ht.followUps.symm
  agrees := by
    rintro o ⟨⟩
    rw [ht.executions, ht.followUps]
    exact ha

theorem Step.settled {call : Call} {result : Except AssistantFault Outcome}
    (hs : Step e a p call (.ended result)) (hf : Fits e vs p) :
    Settled e.limit (vs ++ [⟨p, call⟩]) result := by
  cases hs with
  | refused =>
    obtain ⟨ht, hp⟩ := hf
    exact (ht.ask rfl rfl rfl).failed (hp.succ _) (by omega) (by omega) (by omega) (by omega) _
  | unseen | unwritten =>
    obtain ⟨hn, ht, hp⟩ := hf
    exact (ht.pass rfl rfl).failed (hp.succ _) hn (by omega) (by omega) (by omega) _
  | unanalysed =>
    obtain ⟨hn, ht, hp⟩ := hf
    exact (ht.ask rfl rfl rfl).failed (hp.succ _) hn (by omega) (by omega) (by omega) _
  | fulfilled _ hyes =>
    obtain ⟨hn, ht, hp⟩ := hf
    refine (ht.ask rfl rfl rfl).settled (hp.succ _) hn (by omega) (by omega) (by omega) ?_
    exact ⟨_, _, _, List.getLast?_concat, rfl, hyes, .inl ⟨rfl, rfl⟩⟩
  | exhausted _ _ hle =>
    obtain ⟨hn, ht, hp⟩ := hf
    refine (ht.ask rfl rfl rfl).settled (hp.succ _) hn (by omega) (by omega) (by omega) ?_
    exact ⟨Nat.le_antisymm hn hle, rfl⟩
  | unhelped =>
    obtain ⟨hn, ht, hp⟩ := hf
    exact (ht.follow rfl rfl rfl).failed (hp.succ _) hn (by omega) (by omega) (by omega) _
  | corrected _ hyes =>
    obtain ⟨hn, ht, hp⟩ := hf
    refine (ht.follow rfl rfl rfl).settled (hp.succ _) hn (by omega) (by omega) (by omega) ?_
    exact ⟨_, _, _, List.getLast?_concat, rfl, hyes, .inr ⟨rfl, rfl⟩⟩

/-- A course that ends with a result keeps to the limit. -/
theorem Course.settled (hc : Course e a .opening vs p) {result : Except AssistantFault Outcome}
    (hr : p.result? = some result) : Settled e.limit vs result := by
  cases p with
  | queued queue n =>
    cases queue with
    | nil =>
      obtain rfl := Option.some.inj hr
      obtain ⟨hn, ht, hp⟩ := hc.fits
      exact ht.settled hp hn (by omega) (by omega) (by omega) rfl
    | cons => cases hr
  | ended r =>
    obtain rfl := Option.some.inj hr
    cases hc with
    | step hc hs => exact hs.settled hc.fits
  | _ => cases hr

/-- The work on a request, for every system and every service and whatever they answer: the
calls of a run are those of a course that ends with the result of the run, there are at most as
many follow-up requests as the limit says, and the other counts follow. When a follow-up request
is sent, a counter as wide as the limit does not overflow. -/
theorem carryOut_settled (h : Host σ) (e : Errand) (a : Assistant σ) (s : σ) :
    ∃ vs p, Course e a .opening vs p ∧ p.result? = some (e.carryOut h a s).1.1 ∧
      e.carryOut h.recorded a.recorded ⟨s, []⟩ =
        (((e.carryOut h a s).1.1, (e.carryOut h a s).1.2.recorded),
          ⟨(e.carryOut h a s).2, vs.map Visit.call⟩) ∧
      Settled e.limit vs (e.carryOut h a s).1.1 ∧
      ∀ v ∈ vs, v.followsUp = true → v.phase.attempts < e.limit ∧
        (e.limit < UInt32.size →
          (UInt32.ofNat v.phase.attempts + 1).toNat = v.phase.attempts + 1) := by
  obtain ⟨vs, p, hc, hr, hy⟩ := exists_course h (e := e) a s []
  rw [List.nil_append] at hy
  refine ⟨vs, p, hc, hr, hy, hc.settled hr, ?_⟩
  intro v hv hf
  have hlt := hc.attempts_lt v hv hf
  refine ⟨hlt, ?_⟩
  intro hsize
  rw [UInt32.toNat_add, UInt32.toNat_ofNat_of_lt' (Nat.lt_trans hlt hsize)]
  exact Nat.mod_eq_of_lt (Nat.lt_of_le_of_lt hlt hsize)

end AssistedShell.Errand
