import AssistedShell.Proofs.Assistant.Window
import AssistedShell.Proofs.Host.Recording

/-! What an assistant asks of its service. After any course of requests,
answered or not, and of outputs told to the assistant, the next request says the
text at hand last, before it the latest of what was said, and above all the
standing instructions, once. The answer, if there is one, is kept after it. -/

namespace AssistedShell.Assistant

variable {σ : Type}

/-- An assistant and the system its service works on. -/
abbrev Scene (σ : Type) := Assistant σ × σ

/-- What can be done with an assistant. -/
inductive Operation where
  | request (text : String)
  /-- The output of a command is told. -/
  | output (text : String)
  | setActing (acting : Bool)

def Operation.run : Scene σ → Operation → Scene σ
  | (a, s), .request text => ((a.request text s).1.2, (a.request text s).2)
  | (a, s), .output text => (a.record .commandOutput text, s)
  | (a, s), .setActing acting => (a.setActing acting, s)

/-- What an answer says. -/
def replied : Except CompletionFault String → List Saying
  | .ok reply => [(.assistant, reply)]
  | .error _ => []

/-- What is said in an operation, by either side. -/
def Operation.said : Scene σ → Operation → List Saying
  | (a, s), .request text => (.user, text) :: replied (a.service (a.asking text) s).1
  | _, .output text => [(.commandOutput, text)]
  | _, .setActing _ => []

/-- All that is said in a course of operations. -/
def said (scene : Scene σ) : List Operation → List Saying
  | [] => []
  | op :: ops => op.said scene ++ said (op.run scene) ops

/-! ### What the assistant was told -/

/-- An assistant under some settings, after `said` was said. -/
structure Informed (settings : Settings) (said : List Saying) (a : Assistant σ) : Prop where
  instructions : a.instructions = settings.instructions
  conversation : a.conversation = .holding settings.entryLimit settings.byteLimit said

variable {settings : Settings} {earlier : List Saying} {a : Assistant σ} {text : String}
  {answer : Except CompletionFault String}

theorem Informed.byteLimit (ha : Informed settings earlier a) :
    a.conversation.byteLimit = settings.byteLimit := by
  rw [ha.conversation]
  rfl

theorem Informed.entryLimit_pos (ha : Informed settings earlier a)
    (hpos : 0 < settings.entryLimit) : 0 < a.conversation.entryLimit := by
  rw [ha.conversation]
  exact hpos

theorem informed_ofService (service : Service σ) (settings : Settings) :
    Informed settings [] (ofService service settings) := ⟨rfl, Conversation.holding_nil.symm⟩

theorem Informed.record (ha : Informed settings earlier a) (saying : Saying) :
    Informed settings (earlier ++ [saying]) (a.record saying.1 saying.2) where
  instructions := ha.instructions
  conversation := by
    change a.conversation.append saying.1 saying.2 = _
    rw [ha.conversation, Conversation.append_holding]

theorem Informed.hear (ha : Informed settings earlier a) (answer : Except CompletionFault String) :
    Informed settings (earlier ++ replied answer) (a.hear answer) := by
  cases answer with
  | error f =>
    rw [replied, List.append_nil]
    exact ha
  | ok reply =>
    have hr := ha.record (.assistant, reply)
    exact ⟨hr.instructions, hr.conversation⟩

theorem Informed.run {s : σ} (ha : Informed settings earlier a) (op : Operation) :
    Informed settings (earlier ++ op.said (a, s)) (op.run (a, s)).1 := by
  cases op with
  | request text =>
    have hr := (ha.record (.user, text)).hear (a.service (a.asking text) s).1
    rw [List.append_assoc] at hr
    rw [Operation.run, request_eq]
    exact hr
  | output text => exact ha.record (.commandOutput, text)
  | setActing acting =>
    rw [Operation.said, List.append_nil]
    exact ⟨ha.instructions, ha.conversation⟩

theorem Informed.foldl {scene : Scene σ} (ha : Informed settings earlier scene.1)
    (ops : List Operation) :
    Informed settings (earlier ++ said scene ops) (ops.foldl Operation.run scene).1 := by
  induction ops generalizing scene earlier with
  | nil =>
    rw [said, List.append_nil]
    exact ha
  | cons op ops ih =>
    have hr := ih (ha.run (s := scene.2) op)
    rwa [List.append_assoc] at hr

/-! ### The request -/

/-- The text at hand is said last. -/
theorem getLast?_asking (hpos : 0 < a.conversation.entryLimit) (text : String) :
    (a.asking text).messages.getLast? =
      some ⟨.user, Text.cut a.conversation.byteLimit text⟩ :=
  Conversation.getLast?_messages_append hpos (.user, text)

/-- What a request that says a text makes of an assistant. -/
structure Keeps (settings : Settings) (said : List Saying) (text : String) (a : Assistant σ)
    (answer : Except CompletionFault String) (a' : Assistant σ) : Prop where
  window : Conversation.Window settings.entryLimit settings.byteLimit
    (said ++ (.user, text) :: replied answer) a'.conversation
  /-- A reply is kept after the text, and as the last reply. -/
  answered : ∀ reply, answer = .ok reply →
    a'.conversation = (a.conversation.append .user text).append .assistant reply ∧
      a'.lastReply = some reply ∧
      ∃ content, Text.LongestFront settings.byteLimit reply content ∧
        a'.conversation.entries.getLast? = some ⟨.assistant, content⟩
  /-- After a failure the text is what was said last, and the last reply is as before. -/
  unanswered : ∀ fault, answer = .error fault →
    a'.conversation = a.conversation.append .user text ∧ a'.lastReply = a.lastReply ∧
      ∃ content, Text.LongestFront settings.byteLimit text content ∧
        a'.conversation.entries.getLast? = some ⟨.user, content⟩

theorem Informed.keeps (hpos : 0 < settings.entryLimit) (ha : Informed settings earlier a)
    (text : String) (answer : Except CompletionFault String) :
    Keeps settings earlier text a answer ((a.record .user text).hear answer) := by
  have hr := ha.record (.user, text)
  have hh := hr.hear answer
  constructor
  case window =>
    rw [hh.conversation, List.append_assoc]
    exact Conversation.window_holding _ _ _
  case answered =>
    rintro reply rfl
    refine ⟨rfl, rfl, _, Text.cut_longest settings.byteLimit reply, ?_⟩
    have hlast := Conversation.getLast?_entries_append (hr.entryLimit_pos hpos) (.assistant, reply)
    rwa [hr.byteLimit] at hlast
  case unanswered =>
    rintro fault rfl
    refine ⟨rfl, rfl, _, Text.cut_longest settings.byteLimit text, ?_⟩
    have hlast := Conversation.getLast?_entries_append (ha.entryLimit_pos hpos) (.user, text)
    rwa [ha.byteLimit] at hlast

/-- Settings leave room for the text at hand. -/
theorem entryLimit_pos (p : Preferences) (model : Option String) (directory : String) :
    0 < (Settings.ofPreferences p model directory).entryLimit :=
  lt_of_lt_of_le Nat.one_pos (le_max_right _ _)

end AssistedShell.Assistant
