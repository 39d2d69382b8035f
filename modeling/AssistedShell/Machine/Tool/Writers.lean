import AssistedShell.Machine.Format

/-! Tools that write without reading: `echo`, `printf`, `seq`, `yes`, `pwd`,
`sleep`, `true` and `false`. -/

namespace AssistedShell.Machine.Tool

/-- The letters of an option of `echo`. -/
def isEchoOption (arg : String) : Bool :=
  match arg.toList with
  | '-' :: c :: r => (c :: r).all fun c => c == 'n' || c == 'e' || c == 'E'
  | _ => false

def echo (c : Context) (args : List String) : Act Termination := do
  let options := (args.takeWhile isEchoOption).flatMap fun a => a.toList.drop 1
  let text := " ".intercalate (args.dropWhile isEchoOption)
  let escapes := ((options.filter (· ≠ 'n')).getLast?.map (· == 'e')).getD false
  let (bytes, stop) :=
    if escapes then Format.unescape true true text.toList else (text.toUTF8.toList, false)
  let bytes := if stop || options.contains 'n' then bytes else bytes ++ [10]
  let _ ← c.writeBytes 1 ⟨bytes.toArray⟩
  return c.exit 0

def printf (c : Context) (args : List String) : Act Termination := do
  let args := if args.head? == some "--" then args.tail else args
  match args with
  | [] => missingOperand c 1
  | format :: args =>
    let r := Format.render Format.tool format args
    let _ ← c.writeBytes 1 ⟨r.bytes.toArray⟩
    for m in r.complaints ++ r.warnings do
      report c m
    return c.exit (if r.complaints.isEmpty then 0 else 1)

/-! ### Progressions -/

/-- A decimal number: its digits as a whole number, and how many of them are places. -/
structure Decimal where
  value : Int
  places : Nat
  deriving DecidableEq, Repr, Inhabited

namespace Decimal

/-- The number that a text writes. -/
def ofString? (s : String) : Option Decimal :=
  let (negative, cs) :=
    match s.toList with
    | '-' :: r => (true, r)
    | '+' :: r => (false, r)
    | cs => (false, cs)
  let whole := cs.takeWhile (· ≠ '.')
  let places := (cs.dropWhile (· ≠ '.')).drop 1
  let digits := whole ++ places
  if digits.isEmpty || !digits.all Char.isDigit then none
  else
    let n : Int := Format.natOf digits
    some ⟨if negative then -n else n, places.length⟩

/-- The value in units of a finer place. -/
def at' (d : Decimal) (places : Nat) : Int := d.value * Nat.pow 10 (places - d.places)

end Decimal

/-- The numbers from `first` to `last` in steps of `step`. -/
def progression (first step last : Int) : List Int :=
  if step = 0 then []
  else
    let count := if step > 0 then (last - first) / step + 1 else (first - last) / (-step) + 1
    (List.range count.toNat).map fun (i : Nat) => first + step * (i : Int)

/-- A number in units of a place written out. -/
def written (places : Nat) (v : Int) : String :=
  let digits := toString v.natAbs
  let digits := String.ofList (List.replicate (places + 1 - digits.length) '0') ++ digits
  let whole := String.ofList (digits.toList.take (digits.length - places))
  let rest := String.ofList (digits.toList.drop (digits.length - places))
  (if v < 0 then "-" else "") ++ whole ++ (if places = 0 then "" else "." ++ rest)

/-- A text filled up with zeros behind its sign. -/
def zeroFilled (width : Nat) (s : String) : String :=
  let zeros := String.ofList (List.replicate (width - s.length) '0')
  if s.startsWith "-" then "-" ++ zeros ++ String.ofList (s.toList.drop 1) else zeros ++ s

def seq (c : Context) (args : List String) : Act Termination := do
  let known : Known := {
    flags := "w"
    valued := "s"
    names := [("equal-width", 'w'), ("separator", 's')]
    placement := .beforeNumbers }
  match known.read args with
  | .error m => usage c m 1
  | .ok a =>
    let args := a.operands
    if args.isEmpty then return ← missingOperand c 1
    if args.length > 3 then
      return ← usage c ("extra operand " ++ quote (args.getD 3 "")) 1
    for a in args do
      if (Decimal.ofString? a).isNone then
        return ← usage c ("invalid floating point argument: " ++ quote a) 1
    let numbers := args.filterMap Decimal.ofString?
    let one : Decimal := ⟨1, 0⟩
    let (first, step, last) :=
      match numbers with
      | [last] => (one, one, last)
      | [first, last] => (first, one, last)
      | [first, step, last] => (first, step, last)
      | _ => (one, one, one)
    if step.value = 0 then
      return ← usage c ("invalid Zero increment value: " ++ quote (args.getD 1 "")) 1
    let shown := max first.places step.places
    let places := max shown last.places
    let all := progression (first.at' places) (step.at' places) (last.at' places)
    let texts := all.map fun v => written shown (v / Nat.pow 10 (places - shown))
    let lastText := written shown (last.at' places / Nat.pow 10 (places - shown))
    let width := ((lastText :: texts).map String.length).foldl max 0
    unless texts.isEmpty do
      let texts := if a.has 'w' then texts.map (zeroFilled width) else texts
      let separator := (a.value? 's').getD "\n"
      let _ ← c.writeBytes 1 (separator.intercalate texts ++ "\n").toUTF8
    return c.exit 0

def yes (c : Context) (args : List String) : Act Termination := do
  match Known.read { placement := .inFront } args with
  | .error m => usage c m 1
  | .ok a =>
    let line := if a.operands.isEmpty then "y" else " ".intercalate a.operands
    let _ ← c.writeStream 1 ⟨.empty, some (line ++ "\n").toUTF8⟩
    return c.exit 0

/-- The working directory of a running program. -/
def directoryOf (c : Context) : Act (Option String) := fun s => (s.disk.pathOf? c.directory, s)

/-- The working directory by the name that the environment gives it, if that is right. -/
def directoryAsNamed (c : Context) : Act (Option String) := fun s =>
  let named := (c.environment.get? "PWD").filter fun p =>
    let parts := Path.split p.toList
    p.startsWith "/" && !parts.contains ['.'] && !parts.contains ['.', '.'] &&
      ((s.disk.find c.directory true p).toOption.map (·.1)) == some c.directory
  (named.orElse fun _ => s.disk.pathOf? c.directory, s)

def pwd (c : Context) (args : List String) : Act Termination := do
  match Known.read { flags := "LP", names := [("logical", 'L'), ("physical", 'P')] } args with
  | .error m => usage c m 1
  | .ok a =>
    unless a.operands.isEmpty do report c "ignoring non-option arguments"
    let asNamed := (a.options.getLast?.map (·.1)) == some 'L'
    match ← if asNamed then directoryAsNamed c else directoryOf c with
    | some path =>
      c.say (path ++ "\n")
      return c.exit 0
    | none =>
      report c "couldn't find directory entry in '..' with matching i-node"
      return c.exit 1

/-- A span of time in thousandths of a second: a decimal number and a unit. -/
def milliseconds? (s : String) : Option Nat :=
  let cs := s.toList
  let (cs, unit) :=
    match cs.getLast? with
    | some 's' => (cs.dropLast, 1000)
    | some 'm' => (cs.dropLast, 60000)
    | some 'h' => (cs.dropLast, 3600000)
    | some 'd' => (cs.dropLast, 86400000)
    | _ => (cs, 1000)
  if cs = "infinity".toList || cs = "inf".toList then some 1000000000000000
  else
    let whole := cs.takeWhile (· ≠ '.')
    let places := (cs.dropWhile (· ≠ '.')).drop 1
    if (whole ++ places).isEmpty || !(whole ++ places).all Char.isDigit then none
    else
      let n := Format.natOf (whole ++ places)
      some (n * unit / Nat.pow 10 places.length)

def sleep (c : Context) (args : List String) : Act Termination := do
  match Known.read { placement := .inFront } args with
  | .error m => usage c m 1
  | .ok a =>
    if a.operands.isEmpty then return ← missingOperand c 1
    let bad := a.operands.filter fun o => (milliseconds? o).isNone
    match bad.reverse with
    | [] =>
      let span := (a.operands.filterMap milliseconds?).foldl (· + ·) 0
      return ⟨.exited 0, c.now + span⟩
    | last :: others =>
      for o in others.reverse do report c ("invalid time interval " ++ quote o)
      usage c ("invalid time interval " ++ quote last) 1

end AssistedShell.Machine.Tool
