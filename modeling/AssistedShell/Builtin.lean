/-! The commands that the shell performs itself. -/

namespace AssistedShell

inductive Builtin where
  | cd | exit | help | history | export | source | call | ask
  deriving DecidableEq, Repr, Inhabited

namespace Builtin

/-- Every name of a built-in command. -/
def names : List String :=
  ["cd", "exit", "help", "history", "export", "source", ".", "call", "ask"]

/-- The built-in command of a name. -/
def ofName? : String → Option Builtin
  | "cd" => some .cd
  | "exit" => some .exit
  | "help" => some .help
  | "history" => some .history
  | "export" => some .export
  | "source" => some .source
  | "." => some .source
  | "call" => some .call
  | "ask" => some .ask
  | _ => none

end Builtin

/-- The version that the shell shows. -/
def version : String := "0.1.0"

/-- What an interactive session opens with. -/
def banner : String :=
  "Ghost Shell v" ++ version ++ "\nType 'help' for a list of built-in commands."

end AssistedShell
