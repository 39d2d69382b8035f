import AssistedShell.Token

/-! Pipelines: programs joined so that each reads what the one before wrote. -/

namespace AssistedShell

/-- Where a stage is told to read. -/
inductive InputSource where
  | file (path : String)
  | hereDoc (text : String)
  deriving DecidableEq, Repr, Inhabited

/-- Where a stage is told to write. -/
structure OutputTarget where
  path : String
  append : Bool
  deriving DecidableEq, Repr, Inhabited

/-- One program of a pipeline with its arguments and redirections. -/
structure Stage where
  name : String
  arguments : List String
  input : Option InputSource
  output : Option OutputTarget
  deriving DecidableEq, Repr, Inhabited

/-- The name and the arguments. -/
def Stage.words (s : Stage) : List String := s.name :: s.arguments

structure Pipeline where
  stages : List Stage
  background : Bool
  deriving DecidableEq, Repr, Inhabited

/-- The stage of a pipeline that has only one. -/
def Pipeline.single? (p : Pipeline) : Option Stage :=
  match p.stages with
  | [s] => some s
  | _ => none

/-- Why a line is no pipeline. -/
inductive SyntaxFault where
  | emptyCommand
  | missingTarget (operator : Redirect)
  | missingDelimiter
  | misplacedBackground
  deriving DecidableEq, Repr, Inhabited

def SyntaxFault.message : SyntaxFault → String
  | .emptyCommand => "syntax error: empty command"
  | .missingTarget op => "syntax error: expected a file name after `" ++ op.text ++ "`"
  | .missingDelimiter => "syntax error: expected a delimiter after `<<`"
  | .misplacedBackground => "syntax error: `&` is only allowed at the end of the line"

end AssistedShell
