import AssistedShell.Host
import AssistedShell.Path
import AssistedShell.Text.Blank
import AssistedShell.Text.Search
import AssistedShell.Text.Utf8

/-! The history file: one command a line, oldest first, readable by its owner
only. Without a file nothing is kept. -/

namespace AssistedShell.History

/-- A command as it is kept: without blanks at its end and on one line. None of a blank one. -/
def entry? (command : String) : Option String :=
  let kept := command.trimBlankEnd
  if kept.isEmpty then none else some (String.ofList (Text.replaceChar '\n' ' ' kept.toList))

/-- The entries of a file's content. -/
def entriesOf (content : ByteArray) : List String :=
  (Text.decodeLossy content).textLines.filter (!·.isAllBlank)

variable {σ : Type} (h : Host σ)

/-- Makes the directory of a file. -/
def makeParent (path : String) (s : σ) : Except Fault Unit × σ :=
  match parentPath? path with
  | none | some "" => (.ok (), s)
  | some dir => h.makeDirectories dir s

/-- Adds a command to the file. -/
def append (file : Option String) (command : String) (s : σ) : Except Fault Unit × σ :=
  match file, entry? command with
  | some path, some entry =>
    match makeParent h path s with
    | (.error e, s) => (.error e, s)
    | (.ok (), s) => h.appendPrivate path (entry ++ "\n").toUTF8 s
  | _, _ => (.ok (), s)

/-- The commands in the file. A missing file has none. -/
def entries (file : Option String) (s : σ) : Except Fault (List String) :=
  match file with
  | none => .ok []
  | some path =>
    match h.fileContent s path with
    | .ok content => .ok (entriesOf content)
    | .error e => if e.kind = .notFound then .ok [] else .error e

end AssistedShell.History
