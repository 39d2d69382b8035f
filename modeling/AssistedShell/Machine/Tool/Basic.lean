import AssistedShell.Machine.State
import AssistedShell.Text.Search

/-! What the tools of the machine have in common: options, quoted names, and the
way they complain. -/

namespace AssistedShell.Machine.Tool

/-! ### Names in messages -/

/-- A character that a name in a message may hold without quotes. -/
def isPlain (c : Char) : Bool := c.isAlphanum || "%+,-./@_".toList.contains c

/-- Whether a name can stand without quotes. A tilde or a number sign counts only in front. -/
def needsQuotes (name : List Char) : Bool :=
  match name with
  | [] => true
  | c :: r => !isPlain c || r.any fun c => !(isPlain c || c == '~' || c == '#')

def isVisible (b : UInt8) : Bool := 0x20 ≤ b && b < 0x7F

def octal (b : UInt8) : String :=
  "\\" ++ toString (b.toNat / 64) ++ toString (b.toNat / 8 % 8) ++ toString (b.toNat % 8)

/-- A byte that is no visible character, as it is written between quotes. -/
def invisible (b : UInt8) : String :=
  match b with
  | 7 => "\\a"
  | 8 => "\\b"
  | 9 => "\\t"
  | 10 => "\\n"
  | 11 => "\\v"
  | 12 => "\\f"
  | 13 => "\\r"
  | b => octal b

/-- The inside of a quoted name; `escaping` says that invisible bytes were being written. -/
def quoteBytes (escaping : Bool) : List UInt8 → String
  | [] => ""
  | b :: r =>
    if isVisible b then
      let c := if b == 0x27 then "'\\''" else (Char.ofNat b.toNat).toString
      (if escaping then "''" else "") ++ c ++ quoteBytes false r
    else (if escaping then "" else "'$'") ++ invisible b ++ quoteBytes true r

/-- A name in quotes. -/
def quote (name : String) : String :=
  let cs := name.toList
  if cs.contains '\'' && cs.all (fun c => ' ' ≤ c && c ≤ '~' && !"\"$!\\".toList.contains c
      && c.toNat != 0x60) then
    "\"" ++ name ++ "\""
  else "'" ++ quoteBytes false name.toUTF8.toList ++ "'"

/-- A name in quotes only where it needs them. -/
def quoteIfNeeded (name : String) : String :=
  if needsQuotes name.toList then quote name else name

/-! ### Options -/

/-- Options given by letter, with their values, and the other arguments. -/
structure Arguments where
  options : List (Char × String) := []
  operands : List String := []
  deriving Inhabited

def Arguments.has (a : Arguments) (c : Char) : Bool := a.options.any (·.1 == c)

/-- The value given last to an option. -/
def Arguments.value? (a : Arguments) (c : Char) : Option String :=
  (a.options.reverse.find? (·.1 == c)).map (·.2)

/-- Where options may stand. In front of numbers, what looks like a negative one is none. -/
inductive Placement where
  | anywhere | inFront | beforeNumbers
  deriving DecidableEq, Repr, Inhabited

/-- The options that a tool knows: the letters of those without a value, of those with one and of
those whose long name may have one, and long names for them. -/
structure Known where
  flags : String := ""
  valued : String := ""
  mayBeValued : String := ""
  names : List (String × Char) := []
  placement : Placement := .anywhere
  deriving Inhabited

/-- The letters of one argument: those of `valued` take what follows them, or the next argument. -/
def letters (flags valued : List Char) : List Char → List String →
    Except Char (List (Char × String) × List String)
  | [], rest => .ok ([], rest)
  | c :: r, rest =>
    if valued.contains c then
      if !r.isEmpty then .ok ([(c, String.ofList r)], rest)
      else
        match rest with
        | v :: rest => .ok ([(c, v)], rest)
        | [] => .error c
    else if flags.contains c then
      match letters flags valued r rest with
      | .ok (os, rest) => .ok ((c, "") :: os, rest)
      | .error e => .error e
    else .error c

/-- The complaint about a letter. -/
def letterFault (valued : String) (c : Char) : String :=
  if valued.contains c then "option requires an argument -- '" ++ c.toString ++ "'"
  else "invalid option -- '" ++ c.toString ++ "'"

/-- An option by its long name, which may be cut short, with the arguments after it. -/
def readName (k : Known) (word : List Char) (rest : List String) :
    Except String ((Char × String) × List String) :=
  let name := word.takeWhile (· ≠ '=')
  let value? := (Text.splitAt? '=' word).map fun (_, v) => String.ofList v
  let found := k.names.filter fun (n, _) => name.isPrefixOf n.toList
  let exact := found.filter fun (n, _) => n.toList == name
  let written := fun n : String => "'--" ++ n ++ "'"
  match if exact.isEmpty then found else exact with
  | [] => .error ("unrecognized option " ++ written (String.ofList word))
  | (n, c) :: others =>
    if others.any (·.2 != c) then
      .error ("option " ++ written (String.ofList word) ++ " is ambiguous; possibilities:" ++
        String.join (found.map fun (n, _) => " " ++ written n))
    else if k.valued.contains c then
      match value?, rest with
      | some v, _ => .ok ((c, v), rest)
      | none, v :: rest => .ok ((c, v), rest)
      | none, [] => .error ("option " ++ written n ++ " requires an argument")
    else if value?.isSome && !k.mayBeValued.contains c then
      .error ("option " ++ written n ++ " doesn't allow an argument")
    else .ok ((c, value?.getD ""), rest)

/-- Reads at most `fuel` arguments: those after `--` are no options. -/
def Known.scan (k : Known) : Nat → List String → Except String Arguments
  | 0, args => .ok ⟨[], args⟩
  | _, [] => .ok {}
  | fuel + 1, arg :: rest =>
    match arg.toList with
    | ['-', '-'] => .ok ⟨[], rest⟩
    | '-' :: '-' :: word =>
      match readName k word rest with
      | .error m => .error m
      | .ok (o, rest) => (k.scan fuel rest).map fun a => { a with options := o :: a.options }
    | '-' :: c :: r =>
      if k.placement = .beforeNumbers && (c.isDigit || c = '.') then .ok ⟨[], arg :: rest⟩
      else
        match letters k.flags.toList k.valued.toList (c :: r) rest with
        | .error c => .error (letterFault k.valued c)
        | .ok (os, rest) => (k.scan fuel rest).map fun a => { a with options := os ++ a.options }
    | _ =>
      if k.placement = .anywhere then
        (k.scan fuel rest).map fun a => { a with operands := arg :: a.operands }
      else .ok ⟨[], arg :: rest⟩

/-- The arguments of a tool after its name. -/
def Known.read (k : Known) (args : List String) : Except String Arguments :=
  k.scan args.length args

/-- The last part of a program's path. -/
def baseName (path : String) : String :=
  String.ofList (path.toList.reverse.takeWhile (· ≠ '/')).reverse

/-- Complains under the name by which the tool was called. -/
def report (c : Context) (message : String) : Act Unit :=
  c.complain (c.words.headD "" ++ ": " ++ message ++ "\n")

/-- Complains about arguments. -/
def usage (c : Context) (message : String) (code : Nat) : Act Termination := do
  report c message
  c.complain ("Try '" ++ c.words.headD "" ++ " --help' for more information.\n")
  return c.exit code

/-- Complains about a missing operand. -/
def missingOperand (c : Context) (code : Nat) : Act Termination := usage c "missing operand" code

/-! ### Files named by arguments -/

/-- What can be read under a name; `-` is standard input. -/
def contentOf (c : Context) (name : String) : Act (Except Errno (Stream × Nat)) :=
  if name = "-" then c.readAll 0
  else fun s =>
    match s.disk.find c.directory true name with
    | .error e => (.error e, s)
    | .ok (_, n) =>
      if !n.mayRead then (.error .denied, s)
      else
        match n.content with
        | .file bytes => (.ok (.ofBytes bytes, c.now), s)
        | .directory .. => (.error .isDirectory, s)
        | .device .zero => (.ok (State.zeros, c.now), s)
        | _ => (.ok ({}, c.now), s)

/-- A number that digits write. -/
def natOf? (s : String) : Option Nat :=
  if s.toList.isEmpty || !s.toList.all Char.isDigit then none
  else some (s.toList.foldl (fun n c => n * 10 + (c.toNat - '0'.toNat)) 0)

/-- A number with a sign. -/
def intOf? (s : String) : Option Int :=
  match s.toList with
  | '-' :: r => (natOf? (String.ofList r)).map fun n => -(n : Int)
  | '+' :: r => (natOf? (String.ofList r)).map Int.ofNat
  | _ => (natOf? s).map Int.ofNat

/-- The lines of some bytes, without their newlines. -/
def byteLines (bytes : ByteArray) : List ByteArray :=
  let rec go (line : List UInt8) : List UInt8 → List ByteArray
    | [] => if line.isEmpty then [] else [⟨line.reverse.toArray⟩]
    | b :: r => if b == 10 then ⟨line.reverse.toArray⟩ :: go [] r else go (b :: line) r
  go [] bytes.toList

end AssistedShell.Machine.Tool
