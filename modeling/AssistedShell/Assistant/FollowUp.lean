import AssistedShell.Assistant.Basic
import AssistedShell.Assistant.Prompts
import AssistedShell.Assistant.Reply
import AssistedShell.Host

/-! Carrying out a request with commands that the assistant suggests. Each
command is previewed and run, the assistant is asked whether its output fulfils
the request, and if not, for better commands, which replace those that are left.
-/

namespace AssistedShell

/-- How the work on a request ended. -/
inductive Verdict where
  /-- The assistant says that the request is fulfilled. -/
  | success
  /-- The assistant has no commands left. -/
  | unresolved
  /-- All follow-up requests are spent. -/
  | exhausted
  deriving DecidableEq, Repr, Inhabited

/-- A verdict with the number of follow-up requests that were sent. -/
structure Outcome where
  verdict : Verdict
  attempts : Nat
  deriving DecidableEq, Repr, Inhabited

def Outcome.status (o : Outcome) : Nat := if o.verdict = .success then 0 else 1

/-- A request to be carried out, and the circumstances. -/
structure Errand where
  request : String
  environment : Environment
  directory : String
  /-- What stands before a suggested command. -/
  prompt : String
  previewMs : Nat
  /-- The most follow-up requests. -/
  limit : Nat
  deriving Repr, Inhabited

namespace Errand

variable {σ : Type} (h : Host σ)

/-- Runs a command: what it wrote, or why it could not be run. -/
def run (e : Errand) (command : String) (s : σ) : String × σ :=
  match h.capture e.environment command e.directory s with
  | (.ok captured, s) => (captured.text, s)
  | (.error f, s) => ("ghsh: " ++ command ++ ": " ++ f.message ++ "\n", s)

/-- The commands that come next: those of a reply, if it has any. -/
def next (queue : List String) (reply : String) : List String :=
  let commands := Reply.commands reply
  if commands.isEmpty then queue else commands

/-- Works off the commands in the queue; `attempts` follow-up requests were sent before. -/
def work (e : Errand) (queue : List String) (attempts : Nat) (a : Assistant σ) (s : σ) :
    (Except AssistantFault Outcome × Assistant σ) × σ :=
  match queue with
  | [] => ((.ok ⟨.unresolved, attempts⟩, a), s)
  | candidate :: queue =>
    match h.preview e.prompt candidate e.previewMs s with
    | (.error f, s) => ((.error (.terminal f), a), s)
    | (.ok .cancelled, s) => e.work queue attempts a s
    | (.ok (.run command), s) =>
      if command.isAllBlank then e.work queue attempts a s
      else
        let (output, s) := e.run h command s
        match h.writeOut output s with
        | (.error f, s) => ((.error (.terminal f), a), s)
        | (.ok (), s) =>
          let a := (a.record .commandOutput output).setActing false
          match a.request (Prompts.analysis e.request output) s with
          | ((.error f, a), s) => ((.error (.request f), a), s)
          | ((.ok analysis, a), s) =>
            if Prompts.isSuccess analysis then ((.ok ⟨.success, attempts⟩, a), s)
            else if e.limit ≤ attempts then ((.ok ⟨.exhausted, attempts⟩, a), s)
            else
              match (a.setActing true).request (Prompts.followUp e.request output analysis) s with
              | ((.error f, a), s) => ((.error (.request f), a), s)
              | ((.ok reply, a), s) =>
                if Prompts.isSuccess reply then ((.ok ⟨.success, attempts + 1⟩, a), s)
                else e.work (next queue reply) (attempts + 1) a s
termination_by (e.limit - attempts, queue.length)
decreasing_by
  all_goals simp_wf
  · exact Prod.Lex.right _ (by simp)
  · exact Prod.Lex.right _ (by simp)
  · exact Prod.Lex.left _ _ (by omega)

/-- Asks the assistant for commands and works them off. -/
def carryOut (e : Errand) (a : Assistant σ) (s : σ) :
    (Except AssistantFault Outcome × Assistant σ) × σ :=
  match (a.setActing true).request e.request s with
  | ((.error f, a), s) => ((.error (.request f), a), s)
  | ((.ok reply, a), s) => e.work h (Reply.commands reply) 0 a s

end Errand

end AssistedShell
