import AssistedShell.Builtin
import AssistedShell.Program
import AssistedShell.TabCompletion.FileName

/-! Completing the word before the cursor. The first word of a command is
completed to a command name, any other to a file name. -/

namespace AssistedShell.TabCompletion

/-- The characters that end a word. -/
def endsWord (c : Char) : Bool := [' ', '\t', '|', '<', '>', '&'].contains c

/-- A line cut before the word at its end. Escaped characters end no word. -/
def splitWord (before word : List Char) : List Char → List Char × List Char
  | [] => (before, word)
  | '\\' :: c :: r => splitWord before (word ++ ['\\', c]) r
  | c :: r =>
    if endsWord c then splitWord (before ++ word ++ [c]) [] r
    else splitWord before (word ++ [c]) r

/-- What the word at the end of a line is. -/
inductive WordKind where
  | command
  | argument (afterCd : Bool)
  deriving DecidableEq, Repr, Inhabited

/-- What follows the last pipe. -/
def lastSegment (cs : List Char) : List Char := (cs.reverse.takeWhile (· ≠ '|')).reverse

/-- The kind of a word, by what stands before it. -/
def WordKind.after (before : List Char) : WordKind :=
  let head := Text.trimEnd before
  if head.isEmpty || head.getLast? == some '|' then .command
  else .argument (Text.words (lastSegment head) == ["cd".toList])

variable {σ : Type} (h : Host σ)

/-- The command names on offer: the built-in ones and the programs of the search path, in
order, each once. -/
def commandNames (search : Option String) (s : σ) : List String :=
  let dirs := (search.map Program.directories).getD []
  let programs := dirs.flatMap fun dir =>
    ((h.listing s dir).filter (·.isProgram)).map (·.name)
  ((Builtin.names ++ programs).mergeSort (· ≤ ·)).eraseDups

/-- What stands before the word at the end of a line, and what may be put in its place. After
`cd` only directories are on offer. -/
def complete (env : Environment) (commands : List String) (line : String) (s : σ) :
    String × List Candidate :=
  let (before, word) := splitWord [] [] line.toList
  match WordKind.after before with
  | .command =>
    (String.ofList before,
      (commands.filter fun c => word.isPrefixOf c.toList).map fun c => ⟨c, c⟩)
  | .argument afterCd =>
    let (before, found) := completeFile h env line.toList s
    (String.ofList before,
      if afterCd then found.filter (·.replacement.endsWith "/") else found)

end AssistedShell.TabCompletion
