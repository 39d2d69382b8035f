import AssistedShell.Host
import AssistedShell.Path

/-! Completing the name of a file at the end of a line. The name may stand in an
open quote, or have its special characters escaped; what is offered is written
the same way. -/

namespace AssistedShell.TabCompletion

/-- Something to put in place of a word, and how it is shown. -/
structure Candidate where
  display : String
  replacement : String
  deriving DecidableEq, Repr, Inhabited

inductive Quote where
  | single | double
  deriving DecidableEq, Repr, Inhabited

/-- The characters before which a file name breaks off, unless they are escaped. -/
def isBreak (c : Char) : Bool :=
  [' ', '\t', '\n', '"', '\\', '\'', Char.ofNat 0x60, '@', '$', '>', '<', '=', ';', '|', '&',
    '\x7b', '(', '\x00'].contains c

/-- The characters that are special between double quotes. -/
def isSpecial (c : Char) : Bool := ['"', '$', '\\', Char.ofNat 0x60].contains c

/-! ### The open quote -/

/-- The state of a scan for quotes. -/
inductive Scan where
  | outside
  | escaped
  | inside (quote : Quote)
  | escapedInside
  deriving DecidableEq, Repr

/-- The state after a character. -/
def Scan.step : Scan → Char → Scan
  | .outside, c =>
    if c = '"' then .inside .double
    else if c = '\\' then .escaped
    else if c = '\'' then .inside .single
    else .outside
  | .escaped, _ => .outside
  | .inside .double, c =>
    if c = '"' then .outside else if c = '\\' then .escapedInside else .inside .double
  | .escapedInside, _ => .inside .double
  | .inside .single, c => if c = '\'' then .outside else .inside .single

/-- The text up to an open quote, itself included, and the text after it. -/
def openQuote? (scan : Scan) (before word : List Char) :
    List Char → Option (Quote × List Char × List Char)
  | [] =>
    match scan with
    | .inside q => some (q, before, word)
    | .escapedInside => some (.double, before, word)
    | .outside | .escaped => none
  | c :: r =>
    let next := scan.step c
    if scan = .outside then openQuote? next (before ++ word ++ [c]) [] r
    else openQuote? next before (word ++ [c]) r

/-! ### The word -/

/-- The number of characters after the last break of a text given backwards, if there is a
break. An escape character right before a break takes its force; `n` characters are counted
already. -/
def breakBehind? (n : Nat) : List Char → Option Nat
  | [] => none
  | c :: r =>
    if isBreak c then
      match r with
      | '\\' :: r => breakBehind? (n + 2) r
      | _ => some n
    else breakBehind? (n + 1) r

/-- A line cut before its last word. -/
def splitLast (line : List Char) : List Char × List Char :=
  match breakBehind? 0 line.reverse with
  | none => ([], line)
  | some n => (line.take (line.length - n), line.drop (line.length - n))

/-- The text without its escape characters. -/
def unescape : List Char → List Char
  | [] => []
  | ['\\'] => []
  | '\\' :: c :: r => c :: unescape r
  | c :: r => c :: unescape r

/-- The text with every character of a kind escaped. -/
def escape (special : Char → Bool) (cs : List Char) : List Char :=
  cs.flatMap fun c => if special c then ['\\', c] else [c]

/-- Reads what stands in a quote, or in none. -/
def readWord (quote : Option Quote) (written : List Char) : List Char :=
  if quote = some .single then written else unescape written

/-- Writes a path so that it reads back where it is put. -/
def writeWord (quote : Option Quote) (path : List Char) : List Char :=
  match quote with
  | none => escape isBreak path
  | some .double => escape isSpecial path
  | some .single => path

/-! ### The files -/

/-- A path cut after its last slash. -/
def splitPath (path : List Char) : List Char × List Char :=
  let name := (path.reverse.takeWhile (· ≠ '/')).reverse
  (path.take (path.length - name.length), name)

variable {σ : Type} (h : Host σ)

/-- The directory that a text ending in a slash names. -/
def directoryOf (env : Environment) (dir : List Char) (s : σ) : String :=
  match Path.components dir, h.home? s env with
  | .name ['~'] :: _, some home =>
    joinPath home (String.ofList ((Path.below? dir ['~']).getD []))
  | _, _ =>
    match h.directory s with
    | .ok cwd => joinPath cwd (String.ofList dir)
    | .error _ => String.ofList dir

/-- The files whose paths begin as given. -/
def fileCandidates (env : Environment) (quote : Option Quote) (path : List Char) (s : σ) :
    List Candidate :=
  let (dir, name) := splitPath path
  let found := (h.listing s (directoryOf h env dir s)).filter fun e => name.isPrefixOf e.name.toList
  let candidates := found.map fun e =>
    let slash := if e.isDirectory then ['/'] else []
    (⟨e.name, String.ofList (writeWord quote (dir ++ e.name.toList ++ slash))⟩ : Candidate)
  candidates.mergeSort fun a b => a.display ≤ b.display

/-- What stands before the file name at the end of a line, and the files that may be meant. -/
def completeFile (env : Environment) (line : List Char) (s : σ) : List Char × List Candidate :=
  match openQuote? .outside [] [] line with
  | some (quote, before, word) =>
    (before, fileCandidates h env (some quote) (readWord (some quote) word) s)
  | none =>
    let (before, word) := splitLast line
    (before, fileCandidates h env none (readWord none word) s)

end AssistedShell.TabCompletion
