import AssistedShell.Machine.Format

/-! Tools that pass on what they read, or a part of it: `cat`, `head` and
`tail`. -/

namespace AssistedShell.Machine.Tool

/-- Standard input, if no file is named. -/
def sources (operands : List String) : List String := if operands.isEmpty then ["-"] else operands

/-- A byte as `cat` shows it. -/
def shownByte (visibly tabs : Bool) (b : UInt8) : List UInt8 :=
  let plain := fun b : UInt8 => if b < 32 then [94, b + 64] else if b == 127 then [94, 63] else [b]
  if b == 9 then (if tabs then [94, 73] else [9])
  else if !visibly then [b]
  else if b < 128 then plain b
  else 77 :: 45 :: plain (b - 128)

/-- How far `cat` is: the number of the next line, and the empty lines right before it. -/
structure Passed where
  line : Nat := 1
  empty : Nat := 0

/-- A line as `cat` shows it; `closed` tells whether a newline ends it. -/
def shownLine (a : Arguments) (p : Passed) (line : List UInt8) (closed : Bool) :
    List UInt8 × Passed :=
  let isEmpty := line.isEmpty && closed
  if isEmpty && p.empty > 0 && a.has 's' then ([], p)
  else
    let counted := if a.has 'b' then !isEmpty else a.has 'n'
    let n := toString p.line
    let front := String.ofList (List.replicate (6 - n.length) ' ') ++ n ++ "\t"
    let everything := a.has 'A'
    let visibly := everything || a.has 'v' || a.has 'e' || a.has 't'
    let text := line.flatMap (shownByte visibly (everything || a.has 'T' || a.has 't'))
    let ending := if everything || a.has 'E' || a.has 'e' then [36, 10] else [10]
    ((if counted then front.toUTF8.toList else []) ++ text ++ (if closed then ending else []),
      ⟨if counted then p.line + 1 else p.line, if isEmpty then p.empty + 1 else 0⟩)

/-- The lines of a file as `cat` shows them. -/
def shownLines (a : Arguments) (p : Passed) (bytes : ByteArray) : List UInt8 × Passed :=
  let lines := byteLines bytes
  let whole := bytes.isEmpty || bytes.get! (bytes.size - 1) == 10
  let shown := lines.foldl (fun (out, p, left) l =>
    let (text, p) := shownLine a p l.toList (left > 1 || whole)
    (out ++ text, p, left - 1)) (([] : List UInt8), p, lines.length)
  (shown.1, shown.2.1)

/-- Whether a file would be copied to its own end: output goes to it, and some of it is left to
read. -/
def feedsItself (c : Context) (name : String) : Act Bool := fun s =>
  let opened := fun fd : Nat =>
    match (c.file? fd).bind (s.files[·]?) with
    | some ⟨.node id, offset, _, _, _⟩ => some (id, offset)
    | _ => none
  let source :=
    if name = "-" then opened 0
    else (s.disk.find c.directory true name).toOption.map fun (id, _) => (id, 0)
  match source, opened 1 with
  | some (id, offset), some (goal, _) =>
    (id = goal && offset < ((s.disk.bytes? id).map (·.size)).getD 0, s)
  | _, _ => (false, s)

def cat (c : Context) (args : List String) : Act Termination := do
  let known : Known := {
    flags := "nubsvETAet"
    names := [("number", 'n'), ("number-nonblank", 'b'), ("squeeze-blank", 's'),
      ("show-all", 'A'), ("show-ends", 'E'), ("show-tabs", 'T'), ("show-nonprinting", 'v')] }
  match known.read args with
  | .error m => usage c m 1
  | .ok a =>
    let mut status := 0
    let mut now := c.now
    let mut passed : Passed := {}
    for name in sources a.operands do
      if ← feedsItself c name then
        report (c.later now) (quoteIfNeeded name ++ ": input file is output file")
        status := 1
        continue
      match ← contentOf c name with
      | .error e =>
        report (c.later now) (quoteIfNeeded name ++ ": " ++ e.text)
        status := 1
      | .ok (data, ready) =>
        now := max now ready
        if a.options.any (·.1 != 'u') then
          let (shown, after) := shownLines a passed data.bytes
          passed := after
          let _ ← (c.later now).writeBytes 1 ⟨shown.toArray⟩
        else
          let _ ← (c.later now).writeStream 1 data
    if (sources a.operands).contains "-" && (c.file? 0).isNone then
      report (c.later now) "closing standard input: Bad file descriptor"
      status := 1
    return (c.later now).exit status

/-- A count of lines or bytes with a sign. -/
structure Count where
  bytes : Bool
  sign : Option Char
  amount : Nat

/-- A number with a letter behind it for a multiple: 512, or a power of 1024, or of 1000 where a B
follows. -/
def amount? (cs : List Char) : Option Nat :=
  let digits := cs.takeWhile Char.isDigit
  if digits.isEmpty then none
  else
    let n := Format.natOf digits
    let power := fun (c : Char) => ("KMGTPE".toList.idxOf? (if c = 'k' then 'K' else c)).map (· + 1)
    match cs.drop digits.length with
    | [] => some n
    | ['b'] => some (n * 512)
    | [c] => (power c).map fun p => n * Nat.pow 1024 p
    | [c, 'B'] => (power c).map fun p => n * Nat.pow 1000 p
    | [c, 'i', 'B'] => (power c).map fun p => n * Nat.pow 1024 p
    | _ => none

def countOf? (bytes : Bool) (s : String) : Option Count :=
  match s.toList with
  | '-' :: r => (amount? r).map fun n => ⟨bytes, some '-', n⟩
  | '+' :: r => (amount? r).map fun n => ⟨bytes, some '+', n⟩
  | cs => (amount? cs).map fun n => ⟨bytes, none, n⟩

/-- Arguments with an old form `-5` in front written as an option. -/
def modernized (args : List String) : List String :=
  match args with
  | a :: r =>
    match a.toList with
    | '-' :: c :: cs =>
      if c.isDigit && cs.all Char.isDigit then ["-n", String.ofList (c :: cs)] ++ r else args
    | _ => args
  | [] => []

/-- The count that the options ask for, or the complaint about it. -/
def countFrom (a : Arguments) : Except String Count :=
  match a.options.reverse.find? fun o => o.1 == 'n' || o.1 == 'c' with
  | none => .ok ⟨false, none, 10⟩
  | some (k, v) =>
    match countOf? (k == 'c') v with
    | some n => .ok n
    | none =>
      .error ("invalid number of " ++ (if k == 'c' then "bytes" else "lines") ++ ": " ++ quote v)

/-- All but the last `n` lines. -/
def butLastLines (bytes : ByteArray) (n : Nat) : ByteArray :=
  let lines := byteLines bytes
  let closed := bytes.isEmpty || bytes.get! (bytes.size - 1) == 10
  let kept := lines.length - n
  let out := (lines.take kept).foldl (fun acc l => acc ++ l ++ "\n".toUTF8) ByteArray.empty
  if n = 0 && !closed then bytes else out

/-- The last `n` lines. -/
def lastLines (bytes : ByteArray) (n : Nat) : ByteArray :=
  let lines := byteLines bytes
  let closed := bytes.isEmpty || bytes.get! (bytes.size - 1) == 10
  let out := (lines.drop (lines.length - n)).foldl (fun acc l => acc ++ l ++ "\n".toUTF8)
    ByteArray.empty
  if closed then out else out.extract 0 (out.size - 1)

/-- The options of the tools that keep a part of each file. -/
def partOptions : Known where
  flags := "qv"
  valued := "nc"
  names := [("lines", 'n'), ("bytes", 'c'), ("quiet", 'q'), ("silent", 'q'), ("verbose", 'v')]

/-- Writes what a tool keeps of each file, under headers if there are several. -/
def eachFile (c : Context) (a : Arguments)
    (keep : String → Act (Except Errno (ByteArray × Nat))) : Act Termination := do
  let names := sources a.operands
  let headers := (names.length > 1 && !a.has 'q') || a.has 'v'
  let mut status := 0
  let mut now := c.now
  let mut first := true
  for name in names do
    let shown := if name = "-" then "standard input" else name
    match ← keep name with
    | .error .isDirectory =>
      let c := c.later now
      if headers then
        c.say ((if first then "" else "\n") ++ "==> " ++ shown ++ " <==\n")
        first := false
      report c ("error reading " ++ quote shown ++ ": Is a directory")
      status := 1
    | .error e =>
      report (c.later now) ("cannot open " ++ quote name ++ " for reading: " ++ e.text)
      status := 1
    | .ok (bytes, ready) =>
      now := max now ready
      let c := c.later now
      if headers then
        c.say ((if first then "" else "\n") ++ "==> " ++ shown ++ " <==\n")
        first := false
      let _ ← c.writeBytes 1 bytes
  return (c.later now).exit status

def head (c : Context) (args : List String) : Act Termination := do
  match partOptions.read (modernized args) with
  | .error m => usage c m 1
  | .ok a =>
    match countFrom a with
    | .error m =>
      report c m
      return c.exit 1
    | .ok n =>
      let split : Stream → ByteArray × Stream := fun s =>
        match n.sign, n.bytes with
        | some '-', true => (s.bytes.extract 0 (s.bytes.size - n.amount), {})
        | some '-', false => (butLastLines s.bytes n.amount, {})
        | _, true => s.take n.amount
        | _, false => s.takeLines n.amount
      eachFile c a fun name => do
        if name = "-" then c.readPart 0 split
        else return (← contentOf c name).map fun (s, ready) => ((split s).1, ready)

def tail (c : Context) (args : List String) : Act Termination := do
  let args :=
    match args with
    | a :: r =>
      match a.toList with
      | '+' :: d :: ds => if (d :: ds).all Char.isDigit then ["-n", a] ++ r else args
      | _ => modernized args
    | [] => []
  match partOptions.read args with
  | .error m => usage c m 1
  | .ok a =>
    match countFrom a with
    | .error m =>
      report c m
      return c.exit 1
    | .ok n =>
      let keep : ByteArray → ByteArray := fun b =>
        match n.sign, n.bytes with
        | some '+', true => b.extract (n.amount - 1) b.size
        | some '+', false => ((Stream.ofBytes b).takeLines (n.amount - 1)).2.bytes
        | _, true => b.extract (b.size - n.amount) b.size
        | _, false => lastLines b n.amount
      eachFile c a fun name => do
        return (← contentOf c name).map fun (s, ready) => (keep s.bytes, ready)

end AssistedShell.Machine.Tool
