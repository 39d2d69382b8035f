import AssistedShell.Text.Search

/-! What the assistant is told and asked. -/

namespace AssistedShell.Prompts

/-- The standing instructions. -/
def system : String :=
  "You are a shell command executor. You MUST ONLY output raw shell commands. " ++
  "NEVER use markdown formatting, code blocks, or ``` markers. " ++
  "NEVER include explanations or comments. " ++
  "NEVER return partial commands, they must be complete and executable. " ++
  "Every line you output will be executed directly in the shell. " ++
  "When you need to create a file, use echo with proper shell quoting and redirection. " ++
  "If a task needs multiple steps, use shell operators (;, &&, |) or execute them one by one. " ++
  "When analyzing output, only respond with 'SUCCESS' if the task is complete."

/-- What the assistant says when a request is fulfilled. -/
def successToken : String := "SUCCESS"

/-- The question at the end of an analysis. -/
def analysisQuestion : String :=
  "Please analyze if this output satisfies the user's request. " ++
  "If it is correct and complete, respond with only 'SUCCESS'. " ++
  "If it is not correct or incomplete, explain what needs to be done."

/-- The instruction at the end of a follow-up. -/
def followUpInstruction : String :=
  "Please provide the commands needed to fulfill the request correctly. " ++
  "ONLY provide valid, complete shell commands."

/-- Asks whether the output of a command fulfils the request. -/
def analysis (request output : String) : String :=
  "The user requested: '" ++ request ++ "'\nThe command output was:\n" ++ output ++ "\n" ++
    analysisQuestion

/-- Asks for better commands. -/
def followUp (request output analysis : String) : String :=
  "The user requested: '" ++ request ++ "'\nThe previous attempt resulted in:\n" ++ output ++
    "\nYour analysis indicated the following issues:\n" ++ analysis ++ "\n" ++ followUpInstruction

/-- Whether a reply says that the request is fulfilled. -/
def isSuccess (reply : String) : Bool := Text.occurs successToken.toList reply.toList

/-- It says so if the token stands in it, whatever stands around it. -/
theorem isSuccess_iff {reply : String} :
    isSuccess reply = true ↔ ∃ before after, reply = before ++ "SUCCESS" ++ after := by
  rw [isSuccess, Text.occurs_iff]
  constructor
  · rintro ⟨before, after, h⟩
    refine ⟨String.ofList before, String.ofList after, String.toList_injective ?_⟩
    simpa [String.toList_append, successToken] using h
  · rintro ⟨before, after, rfl⟩
    exact ⟨before.toList, after.toList, by simp [String.toList_append, successToken]⟩

theorem isSuccess_eq_false_iff {reply : String} :
    isSuccess reply = false ↔ ∀ before after, reply ≠ before ++ "SUCCESS" ++ after := by
  rw [Bool.eq_false_iff, ne_eq, isSuccess_iff]
  simp only [not_exists, ne_eq]

end AssistedShell.Prompts
