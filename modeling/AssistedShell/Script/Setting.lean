/-! The settings of the interpreter, each with a name and mostly a letter, and
how arguments turn them on and off. -/

namespace AssistedShell.Script

inductive Setting where
  | errexit | noglob | ignoreeof | interactive | monitor | noexec | stdin | xtrace | verbose
  | vi | emacs | noclobber | allexport | notify | nounset | privileged | nolog | debug
  deriving DecidableEq, Repr, Inhabited

namespace Setting

/-- The settings in the order in which they are listed. -/
def all : List Setting :=
  [errexit, noglob, ignoreeof, interactive, monitor, noexec, stdin, xtrace, verbose, vi, emacs,
    noclobber, allexport, notify, nounset, privileged, nolog, debug]

def name : Setting → String
  | errexit => "errexit"
  | noglob => "noglob"
  | ignoreeof => "ignoreeof"
  | interactive => "interactive"
  | monitor => "monitor"
  | noexec => "noexec"
  | stdin => "stdin"
  | xtrace => "xtrace"
  | verbose => "verbose"
  | vi => "vi"
  | emacs => "emacs"
  | noclobber => "noclobber"
  | allexport => "allexport"
  | notify => "notify"
  | nounset => "nounset"
  | privileged => "privileged"
  | nolog => "nolog"
  | debug => "debug"

def letter? : Setting → Option Char
  | errexit => some 'e'
  | noglob => some 'f'
  | ignoreeof => some 'I'
  | interactive => some 'i'
  | monitor => some 'm'
  | noexec => some 'n'
  | stdin => some 's'
  | xtrace => some 'x'
  | verbose => some 'v'
  | vi => some 'V'
  | emacs => some 'E'
  | noclobber => some 'C'
  | allexport => some 'a'
  | notify => some 'b'
  | nounset => some 'u'
  | privileged => some 'p'
  | nolog => none
  | debug => none

/-- The setting of a letter. -/
def ofLetter? (c : Char) : Option Setting := all.find? fun s => s.letter? == some c

/-- The setting of a name. -/
def ofName? (name : String) : Option Setting := all.find? fun s => s.name == name

/-- The letters of the settings that are on, those listed last in front. -/
def letters (on : List Setting) : String :=
  String.ofList ((all.reverse.filter (on.contains ·)).filterMap letter?)

/-- All settings, one a line; `again` writes them as the commands that bring them about. -/
def listing (again : Bool) (on : List Setting) : String :=
  let line := fun s : Setting =>
    let isOn := on.contains s
    if again then "set " ++ (if isOn then "-" else "+") ++ "o " ++ s.name ++ "\n"
    else
      s.name ++ String.ofList (List.replicate (16 - s.name.length) ' ') ++
        (if isOn then "on" else "off") ++ "\n"
  (if again then "" else "Current option settings\n") ++ String.join (all.map line)

end Setting

/-- What arguments ask for: settings, listings of them, and what is left. -/
structure Choice where
  on : List Setting := []
  /-- A command is among the operands, and no name of a file. -/
  command : Bool := false
  /-- The listings asked for, and whether each is to be read again. -/
  listings : List Bool := []
  operands : List String := []
  /-- The operands count even if there are none. -/
  closed : Bool := false
  deriving Inhabited

namespace Choice

/-- Turns a setting on or off. -/
def turn (c : Choice) (onward : Bool) (s : Setting) : Choice :=
  let others := c.on.filter (· ≠ s)
  { c with on := if onward then s :: others else others }

/-- Reads the letters of an argument; `o` takes a name from the arguments that follow. -/
def readLetters (starting onward : Bool) (c : Choice) :
    List Char → List String → Except String (Choice × List String)
  | [], rest => .ok (c, rest)
  | 'o' :: r, [] => readLetters starting onward { c with listings := c.listings ++ [!onward] } r []
  | 'o' :: r, name :: rest =>
    match Setting.ofName? name with
    | some s => readLetters starting onward (c.turn onward s) r rest
    | none => .error ("Illegal option -o " ++ name)
  | l :: r, rest =>
    if starting && l = 'c' then readLetters starting onward { c with command := true } r rest
    else if starting && l = 'l' then readLetters starting onward c r rest
    else
      match Setting.ofLetter? l with
      | some s => readLetters starting onward (c.turn onward s) r rest
      | none => .error ("Illegal option -" ++ l.toString)

/-- Reads arguments up to the first that is no option, at most `fuel` of them. Where the
interpreter starts there may be a command, and a lone dash only ends the options. -/
def read (starting : Bool) : Nat → Choice → List String → Except String Choice
  | 0, c, args => .ok { c with operands := args }
  | _, c, [] => .ok c
  | fuel + 1, c, a :: rest =>
    match a.toList with
    | ['-'] =>
      let c := if starting then c else (c.turn false .xtrace).turn false .verbose
      .ok { c with operands := rest }
    | ['-', '-'] => .ok { c with operands := rest, closed := true }
    | '-' :: ls =>
      match readLetters starting true c ls rest with
      | .ok (c, rest) => read starting fuel c rest
      | .error e => .error e
    | '+' :: ls =>
      match readLetters starting false c ls rest with
      | .ok (c, rest) => read starting fuel c rest
      | .error e => .error e
    | _ => .ok { c with operands := a :: rest }

/-- What arguments ask for, with some settings on already. -/
def ofArguments (starting : Bool) (on : List Setting) (args : List String) :
    Except String Choice :=
  read starting args.length { on } args

end Choice

end AssistedShell.Script
