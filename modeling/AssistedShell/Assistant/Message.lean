/-! What is said between the user, the assistant and the shell. -/

namespace AssistedShell

/-- Who speaks in a request. -/
inductive Role where
  | system | user | assistant
  deriving DecidableEq, Repr, Inhabited

def Role.name : Role → String
  | .system => "system"
  | .user => "user"
  | .assistant => "assistant"

/-- One message of a request. -/
structure Message where
  role : Role
  content : String
  deriving DecidableEq, Repr, Inhabited

/-- Where an entry of a conversation comes from. -/
inductive Origin where
  | user | assistant | commandOutput
  deriving DecidableEq, Repr, Inhabited

/-- The output of a command is told to the assistant in the user's name. -/
def Origin.role : Origin → Role
  | .user | .commandOutput => .user
  | .assistant => .assistant

end AssistedShell
