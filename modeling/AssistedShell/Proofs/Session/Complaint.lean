import AssistedShell.Proofs.Pipeline.HereDocument
import AssistedShell.Session.Script

/-! What the shell complains about, and the words for it. A complaint quotes one
text at most that is not the shell's own: a path, an argument, or a reason that
another program gave. Complaints are written one line each exactly if no quoted
text has a newline. -/

namespace AssistedShell

/-! ### Newlines in messages -/

@[simp] theorem newline_notMem_toDigits (n : Nat) : '\n' ∉ Nat.toDigits 10 n := fun hm =>
  absurd (Nat.isDigit_of_mem_toDigits (by decide) (by decide) hm) (by decide)

@[simp] theorem Errno.newline_notMem_text (e : Errno) : '\n' ∉ e.text.toList := by
  cases e <;> decide +kernel

@[simp] theorem Fault.newline_notMem_message (f : Fault) : '\n' ∉ f.message.toList := by
  rw [message.eq_def]
  cases f <;> simp

@[simp] theorem Redirect.newline_notMem_text (op : Redirect) : '\n' ∉ op.text.toList := by
  cases op <;> decide +kernel

@[simp] theorem SyntaxFault.newline_notMem_message (f : SyntaxFault) :
    '\n' ∉ f.message.toList := by
  rw [message.eq_def]
  cases f <;> simp

@[simp] theorem Http.newline_notMem_statusLine (code : Nat) : '\n' ∉ (statusLine code).toList := by
  have hr : '\n' ∉ ((reason? code).getD "<unknown status code>").toList := by
    rw [reason?.eq_def]
    split <;> decide +kernel
  simp [statusLine, hr]

/-! ### What is quoted -/

/-- The text in the message of a fault that is not the shell's own. -/
def LaunchFault.quoted : LaunchFault → String
  | .redirect path _ => path
  | .nul name => name
  | .hereDoc _ | .pipe _ | .spawn _ | .wait _ => ""

@[simp] theorem LaunchFault.newline_mem_message (f : LaunchFault) :
    '\n' ∈ f.message.toList ↔ '\n' ∈ f.quoted.toList := by
  rw [message.eq_def]
  cases f <;> simp [quoted]

/-- The reason that a transport gives. -/
def Http.TransportFault.quoted : Http.TransportFault → String
  | .network reason | .build reason => reason
  | .status .. | .timeout => ""

@[simp] theorem Http.TransportFault.newline_mem_message (f : Http.TransportFault) :
    '\n' ∈ f.message.toList ↔ '\n' ∈ f.quoted.toList := by
  rw [message.eq_def]
  cases f <;> simp [quoted]

/-- The reason for which there is no completion, as far as another program gave it. -/
def CompletionFault.quoted : CompletionFault → String
  | .transport f => f.quoted
  | .undecodable reason => reason
  | .emptyResponse | .missingContent => ""

@[simp] theorem CompletionFault.newline_mem_message (f : CompletionFault) :
    '\n' ∈ f.message.toList ↔ '\n' ∈ f.quoted.toList := by
  rw [message.eq_def]
  cases f <;> simp [quoted]

def AssistantFault.quoted : AssistantFault → String
  | .request f => f.quoted
  | .terminal _ => ""

@[simp] theorem AssistantFault.newline_mem_message (f : AssistantFault) :
    '\n' ∈ f.message.toList ↔ '\n' ∈ f.quoted.toList := by
  rw [message.eq_def]
  cases f <;> simp [quoted]

namespace Session

/-- What the shell complains about. -/
inductive Complaint where
  | faulty (fault : SyntaxFault)
  | launch (fault : LaunchFault)
  /-- `cd` has no home directory to go to. -/
  | homeless
  | entering (target : String) (fault : Fault)
  /-- The system does not say where it went. -/
  | locating (fault : Fault)
  /-- An argument of `exit` is no status. -/
  | status (argument : String)
  | history (fault : Fault)
  /-- An argument of `export` has no name that a variable can be given. -/
  | identifier (argument : String)
  /-- `source` has no argument. -/
  | unnamed
  | script (path : String) (fault : Fault)
  | nesting (path : String)
  /-- `call`, whose commands are acted on, or `ask` has nothing to say. -/
  | usage (acting : Bool)
  | unavailable (reason : String)
  | unresolved
  | exhausted (attempts : Nat)
  | assistant (acting : Bool) (fault : AssistantFault)

namespace Complaint

def message : Complaint → String
  | .faulty f => f.message
  | .launch f => f.message
  | .homeless => "cd: HOME not set"
  | .entering target f => "cd: " ++ target ++ ": " ++ f.message
  | .locating f => "cd: " ++ f.message
  | .status argument => "exit: " ++ argument ++ ": numeric argument required"
  | .history f => "history: " ++ f.message
  | .identifier argument => "export: " ++ String.singleton (Char.ofNat 0x60) ++ argument ++
      "': not a valid identifier"
  | .unnamed => "source: filename argument required"
  | .script path f => "source: " ++ path ++ ": " ++ f.message
  | .nesting path => "source: " ++ path ++ ": nested too deeply"
  | .usage true => "call: usage: call <prompt>"
  | .usage false => "ask: usage: ask <prompt>"
  | .unavailable reason => "AI mode unavailable: " ++ reason
  | .unresolved => "call: no further commands were suggested"
  | .exhausted attempts =>
    "call: giving up after " ++ toString attempts ++ " follow-up attempts"
  | .assistant true f => "call: " ++ f.message
  | .assistant false f => "ask: " ++ f.message

/-- The complaint as it is written. -/
def line (c : Complaint) : String := "ghsh: " ++ c.message ++ "\n"

/-- The text in a complaint that is not the shell's own. -/
def quoted : Complaint → String
  | .launch f => f.quoted
  | .entering target _ => target
  | .status argument | .identifier argument => argument
  | .script path _ | .nesting path => path
  | .unavailable reason => reason
  | .assistant _ f => f.quoted
  | .faulty _ | .homeless | .locating _ | .history _ | .unnamed | .usage _ | .unresolved
  | .exhausted _ => ""

theorem newline_mem_message (c : Complaint) :
    '\n' ∈ c.message.toList ↔ '\n' ∈ c.quoted.toList := by
  rw [message.eq_def]
  cases c with
  | usage acting => cases acting <;> simp [quoted]
  | assistant acting f => cases acting <;> simp [quoted]
  | _ => simp [quoted]

/-! ### One line each -/

/-- Whether texts, written one after another, are so many lines of their own, each with the
shell's mark in front. -/
def LineByLine (texts : List String) : Prop :=
  ∃ lines : List String, String.join texts = Pipeline.textOf lines ∧
    lines.length = texts.length ∧ ∀ l ∈ lines, '\n' ∉ l.toList ∧ ∃ rest, l = "ghsh: " ++ rest

theorem count_newline_textOf {lines : List String} (h : ∀ l ∈ lines, '\n' ∉ l.toList) :
    (Pipeline.textOf lines).toList.count '\n' = lines.length := by
  induction lines with
  | nil => rfl
  | cons l lines ih =>
    obtain ⟨hl, h'⟩ := List.forall_mem_cons.mp h
    rw [Pipeline.textOf_cons, String.toList_append, List.count_append, ih h', String.toList_append,
      List.count_append, List.count_eq_zero.mpr hl, List.length_cons]
    simp [Nat.add_comm]

/-- There is one newline more for every newline in a message. -/
theorem count_newline_lines (cs : List Complaint) :
    (String.join (cs.map line)).toList.count '\n' =
      (cs.flatMap fun c => c.message.toList).count '\n' + cs.length := by
  induction cs with
  | nil => rfl
  | cons c cs ih =>
    have hl : c.line.toList.count '\n' = c.message.toList.count '\n' + 1 := by
      simp [line, List.count_append]
    rw [List.map_cons, String.join_cons, String.toList_append, List.count_append, ih, hl,
      List.length_cons, List.flatMap_cons, List.count_append]
    omega

theorem lineByLine_iff (cs : List Complaint) :
    LineByLine (cs.map line) ↔ ∀ c ∈ cs, '\n' ∉ c.quoted.toList := by
  constructor
  · rintro ⟨lines, he, hn, hl⟩ c hc hq
    have hcount := congrArg (List.count '\n' ∘ String.toList) he
    dsimp only [Function.comp] at hcount
    rw [count_newline_lines, count_newline_textOf fun l hm => (hl l hm).1, hn, List.length_map,
      Nat.add_eq_right, List.count_eq_zero] at hcount
    exact hcount (List.mem_flatMap_of_mem hc ((newline_mem_message c).mpr hq))
  · intro hq
    refine ⟨cs.map fun c => "ghsh: " ++ c.message, ?_, by simp, ?_⟩
    · rw [Pipeline.textOf, List.map_map]
      rfl
    · intro l hl
      obtain ⟨c, hc, rfl⟩ := List.mem_map.mp hl
      have hm := (newline_mem_message c).not.mpr (hq c hc)
      exact ⟨by simp [hm], c.message, rfl⟩

end Complaint

end Session

end AssistedShell
