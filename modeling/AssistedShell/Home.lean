import AssistedShell.Path

/-! The user's home directory and what lies in it. -/

namespace AssistedShell.Home

/-- The files that a new session runs, in order. -/
def startupFiles : List String := [".ghsh_profile", ".ghshrc"]

def historyFile : String := ".ghost_history"

/-- What is said when the user has no home. -/
def unknown : String := "could not determine the home directory"

/-- A path with a leading `~` read as the home directory, if there is one. A tilde before other text
is itself. -/
def expandTilde (home : Option String) (dir : String) : String :=
  match dir.toList with
  | '~' :: r =>
    if r.isEmpty || r.head? == some '/' then
      match home with
      | none => dir
      | some home =>
        let rest := r.dropWhile (· == '/')
        if rest.isEmpty then home else joinPath home (String.ofList rest)
    else dir
  | _ => dir

end AssistedShell.Home
