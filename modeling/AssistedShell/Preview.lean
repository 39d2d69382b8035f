import AssistedShell.Host

/-! A suggested command on a terminal: shown after a prompt, open to edits at
its end, and given up on demand. -/

namespace AssistedShell

/-- What a key stands for. -/
inductive KeyCode where
  | char (c : Char)
  | backspace
  | escape
  | other
  deriving DecidableEq, Repr, Inhabited

/-- The key that sends a character: two controls have keys of their own. -/
def KeyCode.ofChar (c : Char) : KeyCode :=
  if c = '\x1b' then .escape else if c = '\x7f' then .backspace else .char c

inductive KeyAction where
  | press | repetition | release
  deriving DecidableEq, Repr, Inhabited

/-- A key with the modifiers held with it. -/
structure Key where
  code : KeyCode
  control : Bool := false
  alt : Bool := false
  action : KeyAction := .press
  deriving DecidableEq, Repr, Inhabited

namespace Preview

/-- What a key does to the command. -/
inductive Effect where
  | edited (command : List Char)
  | ignored
  | cancelled
  deriving DecidableEq, Repr

/-- A character of ASCII with a shape of its own, or a blank. -/
def isTypable (c : Char) : Bool := ' ' ≤ c && c ≤ '~'

/-- What a key that goes down does. -/
def strike (command : List Char) (k : Key) : Effect :=
  match k.code with
  | .escape => .cancelled
  | .backspace => if command.isEmpty then .ignored else .edited command.dropLast
  | .char c =>
    if c = 'c' && k.control then .cancelled
    else if isTypable c && !k.control && !k.alt then .edited (command ++ [c])
    else .ignored
  | .other => .ignored

/-- What a key does; letting it go does nothing. -/
def apply (command : List Char) (k : Key) : Effect :=
  if k.action = .release then .ignored else strike command k

/-- The line shown again from its beginning. -/
def redraw (prompt : String) (command : List Char) : String :=
  "\x1b[1G\x1b[2K" ++ prompt ++ String.ofList command

/-- What is shown when the time for edits is over. -/
def farewell : String := "\r\n"

/-- The decision after the keys, and what is shown meanwhile. -/
def edit (prompt : String) : List Char → List Key → Decision × String
  | command, [] => (.run (String.ofList command), farewell)
  | command, k :: ks =>
    match apply command k with
    | .cancelled => (.cancelled, farewell)
    | .ignored => edit prompt command ks
    | .edited command =>
      let (decision, shown) := edit prompt command ks
      (decision, redraw prompt command ++ shown)

/-- A preview from its first line to the decision. -/
def run (prompt command : String) (keys : List Key) : Decision × String :=
  let (decision, shown) := edit prompt command.toList keys
  (decision, redraw prompt command.toList ++ shown)

end Preview

end AssistedShell
