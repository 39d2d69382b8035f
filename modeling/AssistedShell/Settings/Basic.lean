import AssistedShell.Assistant.Prompts
import AssistedShell.Path

/-! The shell's settings: what a settings file and the command line may say, and
what holds where they say nothing. -/

namespace AssistedShell

/-- What a settings file says. -/
structure Preferences where
  model : Option String := none
  baseUrl : Option String := none
  keyVariable : Option String := none
  instructions : Option String := none
  entryLimit : Option Nat := none
  byteLimit : Option Nat := none
  followUpLimit : Option Nat := none
  previewMs : Option Nat := none
  timeoutSecs : Option Nat := none
  historyFile : Option String := none
  deriving DecidableEq, Repr, Inhabited

/-- The settings of a session. -/
structure Settings where
  model : String
  baseUrl : Option String
  /-- The environment variable that holds the key of the completion service. -/
  keyVariable : String
  instructions : String
  /-- The most entries of a conversation. -/
  entryLimit : Nat
  /-- The most bytes of an entry. -/
  byteLimit : Nat
  /-- The most follow-up requests of a call. -/
  followUpLimit : Nat
  /-- How long a suggested command can be edited. -/
  previewMs : Nat
  timeoutSecs : Option Nat
  historyFile : Option String
  /-- The directory of the settings file and the log. -/
  directory : String
  deriving DecidableEq, Repr, Inhabited

namespace Settings

/-- The settings that preferences and a model named on the command line give. A conversation
keeps at least one entry of at least one byte, and no seconds to wait mean no end to it. -/
def ofPreferences (p : Preferences) (model : Option String) (directory : String) : Settings where
  model := (model <|> p.model).getD "gpt-4o"
  baseUrl := p.baseUrl
  keyVariable := p.keyVariable.getD "OPENAI_API_KEY"
  instructions := p.instructions.getD Prompts.system
  entryLimit := max (p.entryLimit.getD 20) 1
  byteLimit := max (p.byteLimit.getD 8192) 1
  followUpLimit := p.followUpLimit.getD 50
  previewMs := p.previewMs.getD 1500
  timeoutSecs := some (p.timeoutSecs.getD 60) |>.filter (· ≠ 0)
  historyFile := p.historyFile
  directory := directory

/-- The directory of the log. -/
def logDirectory (s : Settings) : String := joinPath s.directory "log"

end Settings

end AssistedShell
