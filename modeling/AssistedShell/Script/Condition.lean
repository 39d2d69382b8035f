import AssistedShell.Script.Arithmetic
import AssistedShell.Script.Interpreter

/-! Conditions on texts, numbers and files. -/

namespace AssistedShell.Script.Condition

open Machine (Disk Node NodeId)

/-- What a condition looks at. -/
structure Surroundings where
  disk : Disk
  directory : NodeId

def node? (s : Surroundings) (path : String) (follow : Bool := true) : Option Node :=
  (s.disk.find s.directory follow path).toOption.map (·.2)

def sizeOf (n : Node) : Nat :=
  match n.content with
  | .file b => b.size
  | .directory .. | .tool _ => 4096
  | _ => 0

def isLink (n : Node) : Bool :=
  match n.content with
  | .link _ | .anchor _ => true
  | _ => false

/-- What an operator of conditions does. -/
inductive Kind where
  | unary | binary | and | or | not | opens | closes
  deriving DecidableEq, Repr, Inhabited

def kindOf? (s : String) : Option Kind :=
  if ["-r", "-w", "-x", "-e", "-f", "-d", "-c", "-b", "-p", "-u", "-g", "-k", "-s", "-t", "-z",
      "-n", "-h", "-L", "-O", "-G", "-S"].contains s then some .unary
  else if ["=", "!=", "<", ">", "-eq", "-ne", "-ge", "-gt", "-le", "-lt", "-nt", "-ot",
      "-ef"].contains s then some .binary
  else
    match s with
    | "-a" => some .and
    | "-o" => some .or
    | "!" => some .not
    | "(" => some .opens
    | ")" => some .closes
    | _ => none

/-- Whether a condition holds, or the complaint that ends it. -/
abbrev Truth := Except String Bool

/-- Whether the condition in front holds, with the arguments from its last one on. -/
abbrev Judged := Except String (Bool × List String)

/-- A number in decimal, blanks around it. -/
def number (x : String) : Except String Int :=
  match Machine.Tool.intOf? x.trimBlank with
  | some n => if n.natAbs ≤ Arithmetic.largest then .ok n else .error ("Illegal number: " ++ x)
  | none => .error ("Illegal number: " ++ x)

/-- A condition with one operand. -/
def unary (s : Surroundings) (op x : String) : Truth :=
  let file := fun p : Node → Bool => Except.ok (((node? s x).map p).getD false)
  match op with
  | "-n" => .ok (x ≠ "")
  | "-z" => .ok (x = "")
  | "-e" | "-O" | "-G" => .ok (node? s x).isSome
  | "-f" => file Node.isRegular
  | "-d" => file Node.isDirectory
  | "-s" => file fun n => sizeOf n > 0
  | "-r" => file Node.mayRead
  | "-w" => file Node.mayWrite
  | "-x" => file Node.mayEnter
  | "-L" | "-h" => .ok (((node? s x false).map isLink).getD false)
  | "-c" => file fun n =>
      match n.content with
      | .device _ => true
      | _ => false
  | "-t" => (number x).map fun _ => false
  | _ => .ok false

/-- A condition with two operands. No file is newer than another. -/
def binary (s : Surroundings) (a op b : String) : Truth := do
  let numbers := fun p : Int → Int → Bool => do
    let x ← number a
    let y ← number b
    return p x y
  match op with
  | "=" => return a == b
  | "!=" => return a != b
  | "<" => return a < b
  | ">" => return b < a
  | "-eq" => numbers (· == ·)
  | "-ne" => numbers (· != ·)
  | "-lt" => numbers (· < ·)
  | "-le" => numbers (· ≤ ·)
  | "-gt" => numbers (· > ·)
  | "-ge" => numbers (· ≥ ·)
  | "-ef" =>
    let id? := fun x => (s.disk.find s.directory true x).toOption.map (·.1)
    return (id? a).isSome && id? a == id? b
  | _ => return false

/-- Whether an operator in front stands for itself as a text: nothing follows it, or a binary
operator and an operand. -/
def isOperand : List String → Bool
  | [_] => true
  | _ :: op :: _ :: _ => kindOf? op == some .binary
  | _ => false

/-- The operator in front, if there is one. -/
def front? (args : List String) : Option Kind :=
  match args with
  | [] => none
  | a :: r =>
    match kindOf? a with
    | some .unary => if isOperand args then none else some .unary
    | some .opens => if r.isEmpty then none else some .opens
    | k => k

mutual

/-- Alternatives. -/
def any (s : Surroundings) (fuel : Nat) (front : Option Kind) (args : List String) : Judged := do
  match fuel with
  | 0 => throw "too complex"
  | fuel + 1 =>
    let (a, at') ← all s fuel front args
    if front? at'.tail = some .or then
      let rest := at'.drop 2
      let (b, at') ← any s fuel (front? rest) rest
      return (a || b, at')
    return (a, at')

/-- Conditions that must hold together. -/
def all (s : Surroundings) (fuel : Nat) (front : Option Kind) (args : List String) : Judged := do
  match fuel with
  | 0 => throw "too complex"
  | fuel + 1 =>
    let (a, at') ← one s fuel front args
    if front? at'.tail = some .and then
      let rest := at'.drop 2
      let (b, at') ← all s fuel (front? rest) rest
      return (a && b, at')
    return (a, at')

/-- A single condition, perhaps turned round. -/
def one (s : Surroundings) (fuel : Nat) (front : Option Kind) (args : List String) : Judged := do
  match fuel with
  | 0 => throw "too complex"
  | fuel + 1 =>
    match front with
    | some .not =>
      let rest := args.tail
      if rest.isEmpty then return (true, args)
      let (a, at') ← one s fuel (front? rest) rest
      return (!a, at')
    | some .opens =>
      let inner := args.tail
      if front? inner = some .closes then return (false, inner)
      let (a, at') ← any s fuel (front? inner) inner
      if front? at'.tail ≠ some .closes then throw "closing paren expected"
      return (a, at'.tail)
    | some .unary =>
      match args with
      | op :: x :: _ => return (← unary s op x, args.tail)
      | _ => throw (args.headD "" ++ ": argument expected")
    | _ =>
      if front? args.tail = some .binary then
        match args with
        | a :: op :: b :: _ => return (← binary s a op b, args.drop 2)
        | _ => throw (args.tail.headD "" ++ ": argument expected")
      return (args.headD "" ≠ "", args)

end

/-- Whether arguments hold, the first of them being `front`. -/
def judge (s : Surroundings) (front : Option Kind) (args : List String) : Truth := do
  let (v, at') ← any s (4 * args.length + 8) front args
  match at' with
  | x :: _ :: _ => throw (x ++ ": unexpected operator")
  | _ => return v

/-- Whether arguments hold; for three or four of them their number decides first. An answer is
turned round at most once. -/
def holdsIf (s : Surroundings) (negated : Bool) (args : List String) : Truth :=
  let whole := (judge s (front? args) args).map (· != negated)
  match args with
  | [a, op, b] =>
    if kindOf? op = some .binary then (judge s none args).map (· != negated)
    else if a = "(" && b = ")" then (judge s (front? [op]) [op]).map (· != negated)
    else if a = "!" then (judge s (front? [op, b]) [op, b]).map (!·)
    else whole
  | [a, b, c, d] =>
    if a = "(" && d = ")" then (judge s (front? [b, c]) [b, c]).map (· != negated)
    else if a = "!" then holdsIf s true [b, c, d]
    else whole
  | _ => whole
termination_by args.length

/-- Whether the arguments of a condition hold. -/
def holds (s : Surroundings) (args : List String) : Truth :=
  if args.isEmpty then .ok false else holdsIf s false args

end AssistedShell.Script.Condition
