import AssistedShell.Script.Tree
import AssistedShell.Text.Blank

/-! Scripts read from text, one complete command line at a time, so that what
precedes a faulty line has run before the fault is found. -/

namespace AssistedShell.Script

/-- Why a script cannot be understood, and in which line. -/
structure ReadFault where
  line : Nat
  message : String
  deriving Repr, Inhabited

/-- A here-document that is announced and not yet read. -/
structure Announced where
  body : Nat
  delimiter : String
  literal : Bool
  stripTabs : Bool
  deriving Inhabited

/-- The text still to be read, and the here-documents read so far. -/
structure Cursor where
  rest : List Char
  line : Nat := 1
  announced : List Announced := []
  bodies : Array Word := #[]
  deriving Inhabited

abbrev Reader := StateT Cursor (Except ReadFault)

namespace Reader

def fail {α : Type} (message : String) : Reader α := do
  throw ⟨(← get).line, message⟩

def peek : Reader (Option Char) := return (← get).rest.head?

def startsWith (s : String) : Reader Bool := return s.toList.isPrefixOf (← get).rest

/-- Takes `n` characters off. -/
def drop (n : Nat) : Reader Unit :=
  modify fun c => { c with rest := c.rest.drop n, line := c.line + (c.rest.take n).count '\n' }

/-- Takes a given text off if it comes next. -/
def accept (s : String) : Reader Bool := do
  if ← startsWith s then
    drop s.length
    return true
  return false

def takeWhile (p : Char → Bool) : Reader (List Char) := do
  let taken := (← get).rest.takeWhile p
  drop taken.length
  return taken

end Reader

open Reader

/-- A character that ends an unquoted word. -/
def isMeta (c : Char) : Bool := " \t\n;&|<>()".toList.contains c

def isNameStart (c : Char) : Bool := c.isAlpha || c == '_'

def isNameChar (c : Char) : Bool := c.isAlphanum || c == '_'

def isName (cs : List Char) : Bool :=
  match cs with
  | [] => false
  | c :: r => isNameStart c && r.all isNameChar

/-- Parameters of one character that are no names. -/
def isSpecial (c : Char) : Bool := "@*#?-$!".toList.contains c

def backquote : Char := Char.ofNat 0x60

/-- Text without the blanks in front, continued lines joined and comments dropped. -/
def dropBlanks : Nat → List Char → List Char
  | 0, cs => cs
  | fuel + 1, cs =>
    match cs with
    | ' ' :: r => dropBlanks fuel r
    | '\t' :: r => dropBlanks fuel r
    | '\\' :: '\n' :: r => dropBlanks fuel r
    | '#' :: r => r.dropWhile (· ≠ '\n')
    | cs => cs

def skipBlanks : Reader Unit := do
  let c ← get
  let after := dropBlanks (c.rest.length + 1) c.rest
  drop (c.rest.length - after.length)

/-- Words that structure a script. -/
def reserved : List String :=
  ["!", "case", "do", "done", "elif", "else", "esac", "fi", "for", "if", "in", "then", "until",
    "while", "\x7b", "\x7d"]

/-- Commands that keep their names: their failure ends a script. -/
def specialNames : List String :=
  [".", ":", "break", "continue", "eval", "exec", "exit", "export", "local", "readonly", "return",
    "set", "shift", "times", "trap", "unset"]

/-- The word without quotes at the front of a text. -/
def plainWord (cs : List Char) : String := String.ofList (cs.takeWhile (!isMeta ·))

/-- The reserved word that comes next. -/
def reservedNext : Reader (Option String) := do
  let w := plainWord (← get).rest
  return if reserved.contains w then some w else none

/-- A token as a message shows it. -/
def shown (token : String) : String := "\"" ++ token ++ "\""

/-- What comes next, as a message names it. -/
def nextToken : Reader String := do
  let cs := (← get).rest
  match cs with
  | [] => return "end of file"
  | '\n' :: _ => return "newline"
  | ';' :: ';' :: _ => return shown ";;"
  | ';' :: _ => return shown ";"
  | '&' :: '&' :: _ => return shown "&&"
  | '&' :: _ => return shown "&"
  | '|' :: '|' :: _ => return shown "||"
  | '|' :: _ => return shown "|"
  | '(' :: _ => return shown "("
  | ')' :: _ => return shown ")"
  | '<' :: _ => return "redirection"
  | '>' :: _ => return "redirection"
  | _ =>
    match ← reservedNext with
    | some w => return shown w
    | none => return "word"

/-- Complains of what comes next, and says what should. -/
def unexpected {α : Type} (expecting : Option String) : Reader α := do
  let t ← nextToken
  let instead :=
    match expecting with
    | none => ""
    | some e => " (expecting " ++ e ++ ")"
  fail ("Syntax error: " ++ t ++ " unexpected" ++ instead)

/-- A backquoted text up to its end, with the backslashes that protect it taken off. -/
def backquoted (inQuotes : Bool) : List Char → Option (List Char × Nat)
  | [] => none
  | '\\' :: c :: r =>
    (backquoted inQuotes r).map fun (t, n) =>
      (if c == backquote || c == '$' || c == '\\' || (inQuotes && c == '"') then (c :: t, n + 2)
        else ('\\' :: c :: t, n + 2))
  | c :: r =>
    if c == backquote then some ([], 1)
    else (backquoted inQuotes r).map fun (t, n) => (c :: t, n + 1)

/-- The lines of a here-document, up to its delimiter. -/
def bodyLines (a : Announced) : List (List Char) → List (List Char) × Nat
  | [] => ([], 0)
  | [l] =>
    let shown := if a.stripTabs then l.dropWhile (· == '\t') else l
    if String.ofList shown = a.delimiter || l.isEmpty then ([], l.length) else ([shown], l.length)
  | l :: r =>
    let shown := if a.stripTabs then l.dropWhile (· == '\t') else l
    if String.ofList shown = a.delimiter then ([], l.length + 1)
    else
      let (ls, n) := bodyLines a r
      ((shown ++ ['\n']) :: ls, n + l.length + 1)

/-- What is read, with what it gives; a word in double quotes or a list, for instance. -/
inductive Part : Type → Type where
  | quoted (stop : Option Char) : Part Word
  | backquote (quoted : Bool) : Part Piece
  | dollar (quoted : Bool) : Part Piece
  | arithmetic (depth : Nat) : Part Word
  | braced (quoted : Bool) : Part Piece
  | bracedWord (quoted : Bool) : Part Word
  | word : Part Word
  | redirection : Part (Option Redirection)
  | bodies : Part Unit
  | newlines : Part Unit
  | simple (assignments : List (String × Word)) (words : List Word)
      (redirections : List Redirection) (line : Nat) : Part Command
  | conditional : Part Command
  | clauses : Part (List (List Word × Command))
  | patterns : Part (List Word)
  | words : Part (List Word)
  | redirections : Part (List Redirection)
  | body : Part Command
  | command : Part Command
  | stages : Part (List Command)
  | pipeline : Part Command
  | joined (first : Command) : Part Command
  | list : Part Command
  | items (done : Command) (lineOnly : Bool) : Part Command
  | script : Part Command

/-- Reads the parts of what is being read. -/
abbrev Reads := {α : Type} → Part α → Reader α

/-- The inside of double quotes, or of a here-document, up to `stop`. -/
def readQuoted (self : Reads) (stop : Option Char) : Reader Word := do
  match ← peek with
  | none => if stop.isNone then return [] else fail "Syntax error: Unterminated quoted string"
  | some c =>
    if some c = stop then
      drop 1
      return []
    else if c = '\\' then
      match (← get).rest with
      | _ :: '\n' :: _ =>
        drop 2
        self (.quoted stop)
      | _ :: d :: _ =>
        drop 2
        let special := d == '$' || d == backquote || d == '\\' || (d == '"' && stop.isSome)
          || some d == stop
        let t := if special then [d] else ['\\', d]
        return .text (String.ofList t) true :: (← self (.quoted stop))
      | _ =>
        drop 1
        return .text "\\" true :: (← self (.quoted stop))
    else if c = '$' then
      let p ← self (.dollar true)
      return p :: (← self (.quoted stop))
    else if c = backquote then
      let p ← self (.backquote true)
      return p :: (← self (.quoted stop))
    else
      let t ← takeWhile fun d => d ≠ '\\' && d ≠ '$' && d ≠ backquote && some d ≠ stop
      return .text (String.ofList t) true :: (← self (.quoted stop))

/-- A substitution between backquotes. -/
def readBackquote (self : Reads) (quoted : Bool) : Reader Piece := do
  let c ← get
  match backquoted quoted (c.rest.drop 1) with
  | none => fail "Syntax error: EOF in backquote substitution"
  | some (text, n) =>
    drop (n + 1)
    let after ← get
    set { after with rest := text, line := c.line }
    let body ← self .script
    modify fun c => { c with rest := after.rest, line := after.line }
    return .substitution body quoted

/-- What a dollar sign begins. -/
def readDollar (self : Reads) (quoted : Bool) : Reader Piece := do
  if ← accept "$((" then return .arithmetic (← self (.arithmetic 0)) quoted
  else if ← accept "$(" then
    let body ← self .list
    skipBlanks
    if ← accept ")" then return .substitution body quoted
    unexpected (some (shown ")"))
  else if ← accept "$\x7b" then self (.braced quoted)
  else
    match (← get).rest with
    | _ :: c :: _ =>
      if isNameStart c then
        drop 1
        let name ← takeWhile isNameChar
        return .parameter (String.ofList name) quoted
      else if c.isDigit || isSpecial c then
        drop 2
        return .parameter c.toString quoted
      else
        drop 1
        return .text "$" quoted
    | _ =>
      drop 1
      return .text "$" quoted

/-- An arithmetic expression up to its two closing parentheses. -/
def readArithmetic (self : Reads) (depth : Nat) : Reader Word := do
  match ← peek with
  | none => fail "Syntax error: Missing '))'"
  | some c =>
    if c = '$' then
      let p ← self (.dollar true)
      return p :: (← self (.arithmetic depth))
    else if c = backquote then
      let p ← self (.backquote true)
      return p :: (← self (.arithmetic depth))
    else if depth = 0 && (← accept "))") then return []
    else
      drop 1
      let depth := if c = '(' then depth + 1 else if c = ')' then depth - 1 else depth
      return .text c.toString true :: (← self (.arithmetic depth))

/-- A parameter in braces, after the opening one. -/
def readBraced (self : Reads) (quoted : Bool) : Reader Piece := do
  let lengthOf := (← startsWith "#") && !(← startsWith "#\x7d")
  if lengthOf then drop 1
  let name ← do
    match ← peek with
    | none => pure []
    | some c =>
      if isNameStart c then takeWhile isNameChar
      else if c.isDigit then takeWhile Char.isDigit
      else if isSpecial c then
        drop 1
        pure [c]
      else pure []
  let name := String.ofList name
  if name.isEmpty then
    if (← peek).isNone then fail "Syntax error: Missing '\x7d'"
    let _ ← takeWhile (fun c => c ≠ '\x7d' && c ≠ '\n')
    let _ ← accept "\x7d"
    return .broken
  if lengthOf then
    if ← accept "\x7d" then return .length name quoted
    let _ ← takeWhile (fun c => c ≠ '\x7d' && c ≠ '\n')
    let _ ← accept "\x7d"
    return .broken
  if ← accept "\x7d" then return .parameter name quoted
  let emptyToo ← accept ":"
  match ← peek with
  | none => fail "Syntax error: Missing '\x7d'"
  | some c =>
    let kind : Option Fallback :=
      match c with
      | '-' => some .use
      | '=' => some .assign
      | '?' => some .complain
      | '+' => some .replace
      | _ => none
    match kind with
    | some k =>
      drop 1
      let word ← self (.bracedWord quoted)
      return .fallback name k emptyToo word quoted
    | none =>
      if emptyToo then
        let _ ← self (.bracedWord quoted)
        return .broken
      else if ← accept "##" then
        return .trimmed name .longFront (← self (.bracedWord false)) quoted
      else if ← accept "#" then
        return .trimmed name .shortFront (← self (.bracedWord false)) quoted
      else if ← accept "%%" then
        return .trimmed name .longBack (← self (.bracedWord false)) quoted
      else if ← accept "%" then
        return .trimmed name .shortBack (← self (.bracedWord false)) quoted
      else
        let _ ← self (.bracedWord quoted)
        return .broken

/-- A word up to the closing brace. -/
def readBracedWord (self : Reads) (quoted : Bool) : Reader Word := do
  match ← peek with
  | none => fail "Syntax error: Missing '\x7d'"
  | some c =>
    if c = '\x7d' then
      drop 1
      return []
    else if c = '\'' && !quoted then
      drop 1
      let t ← takeWhile (· ≠ '\'')
      unless ← accept "'" do fail "Syntax error: Unterminated quoted string"
      return .text (String.ofList t) true :: (← self (.bracedWord quoted))
    else if c = '"' then
      drop 1
      let ps ← self (.quoted (some '"'))
      return (.text "" true :: ps) ++ (← self (.bracedWord quoted))
    else if c = '\\' then
      match (← get).rest with
      | _ :: d :: _ =>
        drop 2
        return .text d.toString true :: (← self (.bracedWord quoted))
      | _ =>
        drop 1
        return .text "\\" true :: (← self (.bracedWord quoted))
    else if c = '$' then
      let p ← self (.dollar quoted)
      return p :: (← self (.bracedWord quoted))
    else if c = backquote then
      let p ← self (.backquote quoted)
      return p :: (← self (.bracedWord quoted))
    else
      drop 1
      return .text c.toString quoted :: (← self (.bracedWord quoted))

/-- A word in double quotes, which stands for something even if it is empty, except where it is
all the parameters and there are none. -/
def markedQuotes : Word → Word
  | [.parameter "@" true] => [.parameter "@" true]
  | ps => .text "" true :: ps

/-- A word up to the next blank or operator. -/
def readWord (self : Reads) : Reader Word := do
  match ← peek with
  | none => return []
  | some c =>
    if isMeta c then return []
    else if c = '\'' then
      drop 1
      let t ← takeWhile (· ≠ '\'')
      unless ← accept "'" do fail "Syntax error: Unterminated quoted string"
      return .text (String.ofList t) true :: (← self .word)
    else if c = '"' then
      drop 1
      let ps ← self (.quoted (some '"'))
      return markedQuotes ps ++ (← self .word)
    else if c = '\\' then
      match (← get).rest with
      | _ :: '\n' :: _ =>
        drop 2
        self .word
      | _ :: d :: _ =>
        drop 2
        return .text d.toString true :: (← self .word)
      | _ =>
        drop 1
        return .text "\\" true :: (← self .word)
    else if c = '$' then
      let p ← self (.dollar false)
      return p :: (← self .word)
    else if c = backquote then
      let p ← self (.backquote false)
      return p :: (← self .word)
    else
      let t ← takeWhile fun d => !isMeta d && !("'\"\\$".toList.contains d) && d ≠ backquote
      return .text (String.ofList t) false :: (← self .word)

/-- A redirection, if one comes next. -/
def readRedirection? (self : Reads) : Reader (Option Redirection) := do
  let cs := (← get).rest
  let digits := cs.takeWhile Char.isDigit
  let after := cs.drop digits.length
  if after.head? != some '<' && after.head? != some '>' then return none
  drop digits.length
  let fd : Option Nat :=
    if digits.isEmpty then none
    else some (digits.foldl (fun n c => n * 10 + (c.toNat - '0'.toNat)) 0)
  let target : Reader Word := do
    skipBlanks
    match ← peek with
    | none => unexpected none
    | some c => if isMeta c then unexpected none else self .word
  if ← accept "<<" then
    let stripTabs ← accept "-"
    let word ← target
    let parts := word.map fun p =>
      match p with
      | .text t q => (t, q)
      | _ => ("", false)
    let c ← get
    let body := c.bodies.size
    let a : Announced := ⟨body, String.join (parts.map (·.1)), parts.any (·.2), stripTabs⟩
    set { c with bodies := c.bodies.push [], announced := c.announced ++ [a] }
    return some (.mk (fd.getD 0) (.hereDoc body) [])
  else if ← accept "<&" then return some (.mk (fd.getD 0) .duplicate (← target))
  else if ← accept "<>" then return some (.mk (fd.getD 0) .both (← target))
  else if ← accept "<" then return some (.mk (fd.getD 0) .input (← target))
  else if ← accept ">>" then return some (.mk (fd.getD 1) .append (← target))
  else if ← accept ">&" then return some (.mk (fd.getD 1) .duplicate (← target))
  else if ← accept ">|" then return some (.mk (fd.getD 1) .output (← target))
  else
    drop 1
    return some (.mk (fd.getD 1) .output (← target))

/-- Reads the here-documents announced so far, after the end of a line. -/
def readBodies (self : Reads) : Reader Unit := do
  let c ← get
  match c.announced with
  | [] => return
  | a :: rest =>
    let (lines, n) := bodyLines a (Text.splitAll (· == '\n') c.rest)
    drop n
    modify fun c => { c with announced := rest }
    let text := lines.flatten
    let after ← get
    let word ←
      if a.literal then pure [Piece.text (String.ofList text) true]
      else do
        set { after with rest := text }
        let w ← self (.quoted none)
        modify fun c => { c with rest := after.rest, line := after.line }
        pure w
    modify fun c => { c with bodies := c.bodies.setIfInBounds a.body word }
    self .bodies

/-- Takes newlines off, and blanks around them. -/
def skipNewlines (self : Reads) : Reader Unit := do
  skipBlanks
  if ← accept "\n" then
    self .bodies
    self .newlines

/-- The rest of a simple command. -/
def readSimple (self : Reads) (assignments : List (String × Word)) (words : List Word)
  (redirections : List Redirection) (line : Nat) : Reader Command := do
  skipBlanks
  match ← self .redirection with
  | some r => self (.simple assignments words (redirections ++ [r]) line)
  | none =>
    match ← peek with
    | none => return .simple assignments words redirections line
    | some c =>
      if isMeta c then
        if c = '(' && words.length = 1 && assignments.isEmpty && redirections.isEmpty then
          match words with
          | [[.text name false]] =>
            drop 1
            skipBlanks
            unless ← accept ")" do unexpected (some (shown ")"))
            unless isName name.toList && !specialNames.contains name do
              fail "Syntax error: Bad function name"
            self .newlines
            let body ← self .command
            return .define name body
          | _ => unexpected none
        else if c = '(' then unexpected none
        else return .simple assignments words redirections line
      else
        let before := (← get).rest
        let name := before.takeWhile isNameChar
        if words.isEmpty && isName name && (before.drop name.length).head? == some '=' then
          drop (name.length + 1)
          let value ← self .word
          self (.simple (assignments ++ [(String.ofList name, value)]) words redirections line)
        else
          let w ← self .word
          self (.simple assignments (words ++ [w]) redirections line)

/-- Expects a reserved word and takes it off. -/
def expectWord (self : Reads) (w : String) : Reader Unit := do
  self .newlines
  if (← reservedNext) == some w then drop w.length else unexpected (some (shown w))

/-- What follows `if` or `elif`. -/
def readConditional (self : Reads) : Reader Command := do
  let test ← self .list
  expectWord self "then"
  let yes ← self .list
  self .newlines
  match ← reservedNext with
  | some "elif" =>
    drop 4
    return .conditional test yes (← self .conditional)
  | some "else" =>
    drop 4
    let no ← self .list
    expectWord self "fi"
    return .conditional test yes no
  | _ =>
    expectWord self "fi"
    return .conditional test yes .nothing

/-- The clauses of a `case` command. -/
def readClauses (self : Reads) : Reader (List (List Word × Command)) := do
  self .newlines
  if (← reservedNext) == some "esac" then
    drop 4
    return []
  let _ ← accept "("
  let patterns ← self .patterns
  self .newlines
  let isEmpty := (← startsWith ";;") || (← reservedNext) == some "esac"
  let body ← if isEmpty then pure .nothing else self .list
  self .newlines
  if ← accept ";;" then return (patterns, body) :: (← self .clauses)
  if (← reservedNext) != some "esac" then unexpected (some (shown ";;"))
  drop 4
  return [(patterns, body)]

/-- Patterns up to the closing parenthesis. -/
def readPatterns (self : Reads) : Reader (List Word) := do
  skipBlanks
  let w ← self .word
  if w.isEmpty && !(← get).rest.isEmpty then unexpected none
  skipBlanks
  if ← accept "|" then return w :: (← self .patterns)
  if ← accept ")" then return [w]
  unexpected (some (shown ")"))

/-- Words up to the end of a line. -/
def readWords (self : Reads) : Reader (List Word) := do
  skipBlanks
  match ← peek with
  | none => return []
  | some c =>
    if isMeta c then return []
    let w ← self .word
    return w :: (← self .words)

/-- The redirections after a compound command. -/
def readRedirections (self : Reads) : Reader (List Redirection) := do
  skipBlanks
  match ← self .redirection with
  | some r => return r :: (← self .redirections)
  | none => return []

/-- A body between `do` and `done`. -/
def readBody (self : Reads) : Reader Command := do
  expectWord self "do"
  let body ← self .list
  expectWord self "done"
  return body

/-- One command, simple or compound. -/
def readCommand (self : Reads) : Reader Command := do
  skipBlanks
  let line := (← get).line
  let finish : Command → Reader Command := fun c => do
    let rs ← self .redirections
    return if rs.isEmpty then c else .redirected c rs line
  if ← startsWith "(" then
    drop 1
    let body ← self .list
    self .newlines
    unless ← accept ")" do unexpected (some (shown ")"))
    finish (.subshell body)
  else
    match ← reservedNext with
    | some "if" =>
      drop 2
      finish (← self .conditional)
    | some "while" =>
      drop 5
      let test ← self .list
      finish (.loop false test (← self .body))
    | some "until" =>
      drop 5
      let test ← self .list
      finish (.loop true test (← self .body))
    | some "\x7b" =>
      drop 1
      let body ← self .list
      expectWord self "\x7d"
      finish (.group body)
    | some "for" =>
      drop 3
      skipBlanks
      let name := plainWord (← get).rest
      unless isName name.toList do fail "Syntax error: Bad for loop variable"
      drop name.length
      self .newlines
      if (← reservedNext) == some "in" then
        drop 2
        let words ← self .words
        skipBlanks
        unless (← accept ";") || (← startsWith "\n") do unexpected none
        finish (.each name (some words) (← self .body))
      else
        skipBlanks
        let _ ← accept ";"
        finish (.each name none (← self .body))
    | some "case" =>
      drop 4
      skipBlanks
      let word ← self .word
      if word.isEmpty then unexpected (some "word")
      expectWord self "in"
      finish (.select word (← self .clauses))
    | some "!" => unexpected none
    | some "in" => self (.simple [] [] [] line)
    | some _ => unexpected none
    | none =>
      match ← peek with
      | none => unexpected none
      | some c =>
        if isMeta c && c ≠ '<' && c ≠ '>' then unexpected none else self (.simple [] [] [] line)

/-- The stages of a pipeline after the first. -/
def readStages (self : Reads) : Reader (List Command) := do
  skipBlanks
  if (← startsWith "|") && !(← startsWith "||") then
    drop 1
    self .newlines
    let c ← self .command
    return c :: (← self .stages)
  return []

/-- Commands joined by pipes, perhaps with their status turned round. -/
def readPipeline (self : Reads) : Reader Command := do
  skipBlanks
  let negated := (← reservedNext) == some "!"
  if negated then drop 1
  let first ← self .command
  let others ← self .stages
  if !negated && others.isEmpty then return first
  return .pipeline negated (first :: others)

/-- What `&&` and `||` join to a command. -/
def readJoined (self : Reads) (first : Command) : Reader Command := do
  skipBlanks
  if ← accept "&&" then
    self .newlines
    self (.joined (.both first (← self .pipeline)))
  else if ← accept "||" then
    self .newlines
    self (.joined (.either first (← self .pipeline)))
  else return first

/-- Commands up to a closing word or parenthesis. -/
def readList (self : Reads) : Reader Command := do
  self .newlines
  match ← peek with
  | none => return .nothing
  | some _ => self (.items .nothing false)

/-- Commands of a list; `lineOnly` stops at the end of the line. -/
def readItems (self : Reads) (done : Command) (lineOnly : Bool) : Reader Command := do
  let first ← self .pipeline
  let item ← self (.joined first)
  skipBlanks
  let background := (← startsWith "&") && !(← startsWith "&&")
  let item := if background then Command.background item else item
  let done := done.andThen item
  let more ←
    if background then do
      drop 1
      pure true
    else if (← startsWith ";") && !(← startsWith ";;") then do
      drop 1
      pure true
    else pure false
  skipBlanks
  if ← startsWith "\n" then
    if lineOnly then return done
    self .newlines
  else if !more then return done
  skipBlanks
  match ← peek with
  | none => return done
  | some c =>
    if c = ')' || c = '\n' || (← startsWith ";;") then return done
    match ← reservedNext with
    | some w =>
      if ["then", "else", "elif", "fi", "do", "done", "esac", "\x7d"].contains w && !lineOnly then
        return done
      self (.items done lineOnly)
    | none => self (.items done lineOnly)

/-- A whole script. -/
def readScript (self : Reads) : Reader Command := do
  self .newlines
  match ← peek with
  | none => return .nothing
  | some _ =>
    let c ← self (.items .nothing false)
    self .newlines
    match ← peek with
    | none => return c
    | some _ => unexpected none

/-- Reads a part whose own parts are at most `fuel` deep. -/
def read : Nat → Reads
  | 0, _, _ => fail "Syntax error: nesting"
  | fuel + 1, _, .quoted stop => readQuoted (read fuel) stop
  | fuel + 1, _, .backquote quoted => readBackquote (read fuel) quoted
  | fuel + 1, _, .dollar quoted => readDollar (read fuel) quoted
  | fuel + 1, _, .arithmetic depth => readArithmetic (read fuel) depth
  | fuel + 1, _, .braced quoted => readBraced (read fuel) quoted
  | fuel + 1, _, .bracedWord quoted => readBracedWord (read fuel) quoted
  | fuel + 1, _, .word => readWord (read fuel)
  | fuel + 1, _, .redirection => readRedirection? (read fuel)
  | fuel + 1, _, .bodies => readBodies (read fuel)
  | fuel + 1, _, .newlines => skipNewlines (read fuel)
  | fuel + 1, _, .simple assignments words redirections line =>
    readSimple (read fuel) assignments words redirections line
  | fuel + 1, _, .conditional => readConditional (read fuel)
  | fuel + 1, _, .clauses => readClauses (read fuel)
  | fuel + 1, _, .patterns => readPatterns (read fuel)
  | fuel + 1, _, .words => readWords (read fuel)
  | fuel + 1, _, .redirections => readRedirections (read fuel)
  | fuel + 1, _, .body => readBody (read fuel)
  | fuel + 1, _, .command => readCommand (read fuel)
  | fuel + 1, _, .stages => readStages (read fuel)
  | fuel + 1, _, .pipeline => readPipeline (read fuel)
  | fuel + 1, _, .joined first => readJoined (read fuel) first
  | fuel + 1, _, .list => readList (read fuel)
  | fuel + 1, _, .items done lineOnly => readItems (read fuel) done lineOnly
  | fuel + 1, _, .script => readScript (read fuel)

/-- The next complete command line; none at the end of the text. -/
def readLine : Reader (Option Command) := do
  let fuel := 8 * (← get).rest.length + 50
  read fuel .newlines
  match ← peek with
  | none => return none
  | some _ =>
    let c ← read fuel (.items .nothing true)
    skipBlanks
    match ← peek with
    | none => return some c
    | some '\n' =>
      drop 1
      read fuel .bodies
      return some c
    | some _ => unexpected none

end AssistedShell.Script
