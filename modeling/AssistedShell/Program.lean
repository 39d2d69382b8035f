import AssistedShell.Environment
import AssistedShell.Path
import AssistedShell.Text.Blank

/-! The program behind a command name. A name with a slash is a path; any other
is looked for in the directories of the search path, in their order. -/

namespace AssistedShell

/-- What a command name leads to. -/
inductive Resolution where
  | found (path : String)
  | notFound
  | notExecutable
  deriving DecidableEq, Repr, Inhabited

namespace Program

/-- The directories of a search path. -/
def directories (search : String) : List String :=
  (Text.splitAll (· == ':') search.toList).map String.ofList

/-- A directory of the search path; a first component `~` is the home directory. -/
def searched (env : Environment) (dir : String) : String :=
  match Path.components dir.toList, env.home? with
  | .name ['~'] :: _, some home =>
    String.ofList (Path.rebase home.toList ((dir.toList.drop 1).dropWhile (· == '/')))
  | _, _ => dir

/-- The path at which a directory of the search path would hold a program. -/
def candidate (env : Environment) (cwd name dir : String) : String :=
  String.ofList (Path.rebase cwd.toList (joinPath (searched env dir) name).toList)

/-- Finds the program of a name. `runnable` tells whether a path leads to a regular file that
may be run, and `present` whether it leads to anything. -/
def resolve (runnable present : String → Bool) (env : Environment) (cwd : String)
    (search : Option String) (name : String) : Resolution :=
  if name.isEmpty then .notFound
  else if name.contains '/' then
    let path := joinPath cwd name
    if runnable path then .found name
    else if present path then .notExecutable
    else .notFound
  else
    let dirs := (search.map directories).getD []
    match (dirs.map (candidate env cwd name)).find? runnable with
    | some path => .found path
    | none =>
      if dirs.any fun dir => present (joinPath (joinPath cwd dir) name) then .notExecutable
      else .notFound

end Program

end AssistedShell
