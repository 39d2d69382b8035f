import AssistedShell.Machine.Kernel
import AssistedShell.Proofs.Assistant.Provenance
import AssistedShell.Proofs.Assistant.Requests

/-! What the assistant is asked about the output of a command. The text of an
analysis and that of a follow-up close with a question, after the output. As
every text that is said, they are cut to the bytes of an entry, and the question
is asked exactly if it ends within them. An output that fills them leaves no
room for it. -/

namespace AssistedShell.Errand

variable {σ : Type} {e : Errand} {a : Assistant σ} {p q : Phase} {call : Call}
  {question prompt : String}

/-- The question of a phase, and the whole text that closes with it. -/
def Phase.poses? (e : Errand) : Phase → Option (String × String)
  | .shown output _ _ => some (Prompts.analysisQuestion, Prompts.analysis e.request output)
  | .analysed output analysis _ _ =>
    some (Prompts.followUpInstruction, Prompts.followUp e.request output analysis)
  | _ => none

/-- A request whose last message is a text that closes with a question, as long as fits. -/
structure Posed (limit : ℕ) (question prompt : String) (request : CompletionRequest) : Prop where
  closing : ∃ front, prompt = front ++ question
  last : request.messages.getLast? = some ⟨.user, Text.cut limit prompt⟩
  whole_iff : Text.cut limit prompt = prompt ↔ prompt.utf8ByteSize ≤ limit
  /-- The question stands in the message if somewhere in the text it ends within the limit. -/
  asked_iff : Text.occurs question.toList (Text.cut limit prompt).toList = true ↔
    ∃ before after, prompt = before ++ question ++ after ∧
      (before ++ question).utf8ByteSize ≤ limit

theorem closing_of_poses? (hp : p.poses? e = some (question, prompt)) :
    ∃ front, prompt = front ++ question := by
  cases p with
  | shown output queue n =>
    obtain ⟨rfl, rfl⟩ := Prod.mk.inj (Option.some.inj hp)
    exact ⟨_, rfl⟩
  | analysed output analysis queue n =>
    obtain ⟨rfl, rfl⟩ := Prod.mk.inj (Option.some.inj hp)
    exact ⟨_, rfl⟩
  | _ => cases hp

/-- In a phase with a question the assistant is asked. -/
theorem Step.says (hs : Step e a p call q) (hp : p.poses? e = some (question, prompt)) :
    ∃ request answer, call = .ask request answer ∧ a.Says prompt request := by
  cases hs with
  | unanalysed hq | fulfilled hq | exhausted hq | analysed hq | unhelped hq | corrected hq
  | followed hq =>
    obtain ⟨-, rfl⟩ := Prod.mk.inj (Option.some.inj hp)
    exact ⟨_, _, rfl, hq⟩
  | _ => cases hp

theorem posed_of_says {settings : Settings} {said : List Saying} {request : CompletionRequest}
    (hpos : 0 < settings.entryLimit) (ha : a.Informed settings said)
    (hc : ∃ front, prompt = front ++ question) (hq : a.Says prompt request) :
    Posed settings.byteLimit question prompt request where
  closing := hc
  last := by
    obtain ⟨b, hb, rfl⟩ := hq
    have hb' : 0 < b.conversation.entryLimit := by
      rw [hb.entryLimit]
      exact ha.entryLimit_pos hpos
    rw [Assistant.getLast?_asking hb', hb.byteLimit, ha.byteLimit]
  whole_iff := Text.cut_eq_self_iff
  asked_iff := Text.occurs_cut_iff question settings.byteLimit prompt

/-- What is asked in the work on a request, for every system and every service, under all settings
that preferences give and whatever was said before: where the output of a command is to be analysed
or better commands are to be asked for, the text says so at its end, and the service is asked so
exactly if the question ends within the bytes of an entry. -/
theorem question_posed_iff (h : Host σ) (e : Errand) (prefs : Preferences) (model : Option String)
    (directory : String) (service : Service σ) (s : σ) (ops : List Assistant.Operation) :
    let settings := Settings.ofPreferences prefs model directory
    let scene := ops.foldl Assistant.Operation.run (Assistant.ofService service settings, s)
    ∃ vs p, Course e scene.1 .opening vs p ∧
      p.result? = some (e.carryOut h scene.1 scene.2).1.1 ∧
      e.carryOut h.recorded scene.1.recorded ⟨scene.2, []⟩ =
        (((e.carryOut h scene.1 scene.2).1.1, (e.carryOut h scene.1 scene.2).1.2.recorded),
          ⟨(e.carryOut h scene.1 scene.2).2, vs.map Visit.call⟩) ∧
      ∀ v ∈ vs, ∀ question prompt, v.phase.poses? e = some (question, prompt) →
        ∃ request answer, v.call = .ask request answer ∧
          Posed settings.byteLimit question prompt request := by
  intro settings scene
  have hstart : Assistant.Informed settings [] (Assistant.ofService service settings, s).1 :=
    Assistant.informed_ofService service settings
  have ha := hstart.foldl ops
  obtain ⟨vs, p, hc, hr, hy⟩ := exists_course h (e := e) scene.1 scene.2 []
  rw [List.nil_append] at hy
  refine ⟨vs, p, hc, hr, hy, fun v hv question prompt hp => ?_⟩
  obtain ⟨before, after, rfl⟩ := List.append_of_mem hv
  obtain ⟨q, -, hs, -⟩ := hc.split
  obtain ⟨request, answer, hcall, hq⟩ := hs.says hp
  exact ⟨request, answer, hcall, posed_of_says (Assistant.entryLimit_pos prefs model directory) ha
    (closing_of_poses? hp) hq⟩

/-! ### An output that leaves no room -/

/-- A system on which every command is run as it is suggested and writes `output`. -/
def deskWriting (output : String) : Host Machine.Desk :=
  { Machine.Desk.host with
    preview := fun _ command _ s => (.ok (.run command), s)
    capture := fun _ _ _ s => (.ok ⟨0, output⟩, s)
    writeOut := fun _ s => (.ok (), s) }

/-- A service with one reply. -/
def replying (reply : String) : Service Machine.Desk := fun _ s => (.ok reply, s)

/-- An output of `n` bytes. -/
def crosses (n : ℕ) : String := String.ofList (List.replicate n 'x')

theorem utf8ByteSize_crosses (n : ℕ) : (crosses n).utf8ByteSize = n := by
  induction n with
  | zero => rfl
  | succ n ih =>
    rw [crosses, List.replicate_succ, Text.utf8ByteSize_ofList_cons, ← crosses, ih]
    exact Nat.add_comm 1 n

theorem notMem_crosses {c : Char} (hc : c ≠ 'x') (n : ℕ) : c ∉ (crosses n).toList := by
  rw [crosses, String.toList_ofList]
  exact fun hm => hc (List.eq_of_mem_replicate hm)

/-- What comes before the question of an analysis. -/
def analysisFront (request output : String) : String :=
  "The user requested: '" ++ request ++ "'\nThe command output was:\n" ++ output

theorem analysis_eq (request output : String) :
    Prompts.analysis request output =
      analysisFront request output ++ ("\n" ++ Prompts.analysisQuestion) :=
  String.append_assoc

theorem le_utf8ByteSize_analysisFront (request output : String) :
    output.utf8ByteSize ≤ (analysisFront request output).utf8ByteSize :=
  (Nat.le_add_left _ _).trans_eq String.utf8ByteSize_append.symm

theorem notMem_append {c : Char} {front rest : String} (hf : c ∉ front.toList)
    (hr : c ∉ rest.toList) : c ∉ (front ++ rest).toList := by
  rw [String.toList_append, List.mem_append]
  exact not_or.mpr ⟨hf, hr⟩

theorem not_occurs_of_notMem {c : Char} {needle cs : List Char} (hc : c ∈ needle) (hn : c ∉ cs) :
    Text.occurs needle cs = false := by
  rw [Bool.eq_false_iff]
  intro ho
  obtain ⟨before, after, rfl⟩ := (Text.occurs_iff needle cs).mp ho
  exact hn (List.mem_append_left _ (List.mem_append_right _ hc))

/-- An output that fills an entry, and in which the question cannot begin, crowds it out. -/
theorem not_occurs_cut_analysis {limit : ℕ} {output : String} (ho : limit ≤ output.utf8ByteSize)
    (hn : 'P' ∉ output.toList) :
    Text.occurs Prompts.analysisQuestion.toList
      (Text.cut limit (Prompts.analysis "count" output)).toList = false := by
  have hfront : 'P' ∉ (analysisFront "count" output).toList :=
    notMem_append (notMem_append (notMem_append (by decide +kernel) (by decide +kernel))
      (by decide +kernel)) hn
  have hsub : (Text.cut limit (analysisFront "count" output)).toList ⊆
      (analysisFront "count" output).toList := by
    rw [Text.cut, String.toList_ofList]
    exact (Text.takeBytes_prefix limit _).subset
  rw [analysis_eq, Text.cut_append (ho.trans (le_utf8ByteSize_analysisFront "count" output))]
  exact not_occurs_of_notMem (by decide +kernel) fun hm => hfront (hsub hm)

/-- With one reply to everything, that reply is the only command, and its output is analysed. -/
theorem log_of_writing (settings : Settings) (e : Errand) (output : String) (s : Machine.Desk) :
    let a := Assistant.ofService (replying "SUCCESS") settings
    ∃ b, a.Like b ∧
      [.writeOut output (.ok ()), .ask (b.asking (Prompts.analysis e.request output)) (.ok "SUCCESS")]
        <:+ (e.carryOut (deskWriting output).recorded a.recorded ⟨s, []⟩).2.log := by
  intro a
  have hc : Reply.commands "SUCCESS" = ["SUCCESS"] := by decide
  have hb := ((((Assistant.Like.refl a).setActing true).record .user e.request).hear
    (.ok "SUCCESS")).record .commandOutput output
  refine ⟨_, hb.setActing false, ?_⟩
  rw [carryOut]
  change _ <:+ (e.work (deskWriting output).recorded (Reply.commands "SUCCESS") 0 _ _).2.log
  rw [hc, work]
  exact ⟨[_, _, _], rfl⟩

/-- The settings that hold where nothing else is said do not save the question: after 8192 bytes of
output, none of it is asked. -/
theorem analysis_without_question :
    let settings := Settings.ofPreferences {} none "/root/.ghsh"
    let output := crosses 8192
    let a := Assistant.ofService (replying "SUCCESS") settings
    let e : Errand := ⟨"count", {}, "/root", "$ ", settings.previewMs, settings.followUpLimit⟩
    let s := Machine.Desk.onDisk .empty Machine.Disk.root true none
    ∃ request m,
      [.writeOut output (.ok ()), .ask request (.ok "SUCCESS")] <:+
        (e.carryOut (deskWriting output).recorded a.recorded ⟨s, []⟩).2.log ∧
      request.messages.getLast? = some m ∧
      Text.occurs Prompts.analysisQuestion.toList m.content.toList = false := by
  intro settings output a e s
  obtain ⟨b, hb, hlog⟩ := log_of_writing settings e output s
  have hpos : 0 < b.conversation.entryLimit := by
    rw [hb.entryLimit]
    exact Assistant.entryLimit_pos {} none "/root/.ghsh"
  have hlimit : b.conversation.byteLimit = 8192 := hb.byteLimit
  refine ⟨_, _, hlog, Assistant.getLast?_asking hpos _, ?_⟩
  rw [hlimit]
  exact not_occurs_cut_analysis (utf8ByteSize_crosses 8192).ge (notMem_crosses (by decide) 8192)

end AssistedShell.Errand
