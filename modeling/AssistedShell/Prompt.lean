import AssistedShell.Environment
import AssistedShell.Path

/-! The prompt: who works where, with the home directory abbreviated. -/

namespace AssistedShell.Prompt

/-- The user shown before commands that the assistant suggests. -/
def assistantUser : String := "ghost"

/-- The user's name in the environment. -/
def currentUser (env : Environment) : String :=
  match env.get? "USER" <|> env.get? "LOGNAME" with
  | none | some "" => "user"
  | some name => name

/-- A directory with the home directory at its front written `~`. A home of one character is
not abbreviated. -/
def directory (cwd : String) (home : Option String) : String :=
  match home.filter (·.utf8ByteSize > 1) with
  | none => cwd
  | some home =>
    match Path.below? cwd.toList home.toList with
    | none => cwd
    | some [] => "~"
    | some rest => "~/" ++ String.ofList rest

def cyan (s : String) : String := "\x1b[36m" ++ s ++ "\x1b[39m"

def yellow (s : String) : String := "\x1b[33m" ++ s ++ "\x1b[39m"

/-- The prompt, coloured on demand. -/
def render (user cwd : String) (home : Option String) (color : Bool) : String :=
  let dir := directory cwd home
  if color then cyan user ++ "@ghsh:" ++ yellow dir ++ "$ "
  else user ++ "@ghsh:" ++ dir ++ "$ "

end AssistedShell.Prompt
