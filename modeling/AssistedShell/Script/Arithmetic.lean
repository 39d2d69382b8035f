import AssistedShell.Text.Numeral

/-! Whole-number expressions of scripts. -/

namespace AssistedShell.Script.Arithmetic

/-- A part of an expression. -/
inductive Token where
  | number (value : Int)
  | name (name : String)
  | operator (text : String)
  /-- What has no place in an expression. -/
  | alien
  deriving DecidableEq, Repr, Inhabited

/-- The operators, longest first. -/
def operators : List String :=
  ["<<=", ">>=", "<<", ">>", "<=", ">=", "==", "!=", "&&", "||", "+=", "-=", "*=", "/=", "%=",
    "&=", "|=", "^=", "+", "-", "*", "/", "%", "<", ">", "=", "!", "~", "&", "|", "^", "?", ":",
    "(", ")"]

def isNameStart (c : Char) : Bool := c.isAlpha || c == '_'

def isNameChar (c : Char) : Bool := c.isAlphanum || c == '_'

def isBlank (c : Char) : Bool := c == ' ' || c == '\t' || c == '\n'

/-- The number at the front of a text, and the rest. A zero in front makes it octal, and an `x`
after the zero hexadecimal. -/
def literal (cs : List Char) : Nat × List Char :=
  let read := fun (base : Nat) (cs : List Char) =>
    let digits := cs.takeWhile fun c => (Text.digit? base c).isSome
    ((Text.number? base digits).getD 0, cs.drop digits.length)
  match cs with
  | '0' :: x :: h :: r =>
    if (x = 'x' || x = 'X') && (Text.digit? 16 h).isSome then read 16 (h :: r) else read 8 cs
  | '0' :: _ => read 8 cs
  | _ => read 10 cs

/-- The largest number. -/
def largest : Nat := UInt64.size / 2 - 1

/-- The parts of an expression, up to the first that has no place in one. -/
def tokens : Nat → List Char → List Token
  | 0, _ => [.alien]
  | _, [] => []
  | fuel + 1, c :: r =>
    if isBlank c then tokens fuel r
    else if c.isDigit then
      let (n, rest) := literal (c :: r)
      .number (min n largest : Nat) :: tokens fuel rest
    else if isNameStart c then
      let word := (c :: r).takeWhile isNameChar
      .name (String.ofList word) :: tokens fuel ((c :: r).drop word.length)
    else
      match operators.find? fun o => o.toList.isPrefixOf (c :: r) with
      | none => [.alien]
      | some o => .operator o :: tokens fuel ((c :: r).drop o.length)

/-- Why an expression has no value. -/
inductive Fault where
  | primary | parenthesis | colon | division | junk
  /-- The value of a variable is no number. -/
  | value (text : String)
  deriving DecidableEq, Repr, Inhabited

def Fault.message : Fault → String
  | .primary => "expecting primary"
  | .parenthesis => "expecting ')'"
  | .colon => "expecting ':'"
  | .division => "division by zero"
  | .junk => "expecting EOF"
  | .value text => "Illegal number: " ++ text

/-- A value as a machine word holds it. -/
def wrap (v : Int) : Int := Int.bmod v UInt64.size

/-- The number that the value of a variable writes; nothing is zero. -/
def valueOf (text : String) : Except Fault Int :=
  let cs := text.toList.dropWhile isBlank
  let (negative, cs) :=
    match cs with
    | '-' :: r => (true, r)
    | '+' :: r => (false, r)
    | _ => (false, cs)
  let (n, rest) := literal cs
  let bound := if negative then largest + 1 else largest
  if rest.all isBlank && n ≤ bound then .ok (if negative then -(n : Int) else n)
  else .error (.value text)

/-- An evaluation under way: what is still to be read, the values of the variables, and what was
assigned, the last first. -/
structure State where
  rest : List Token
  values : String → Option String
  assigned : List (String × Int) := []

abbrev Eval := StateT State (Except Fault)

def next? : Eval (Option Token) := return (← get).rest.head?

def advance : Eval Unit := modify fun s => { s with rest := s.rest.tail }

/-- Takes an operator off if it comes next. -/
def accept (o : String) : Eval Bool := do
  if (← next?) == some (.operator o) then
    advance
    return true
  return false

/-- The value of a variable. -/
def valueIn (name : String) : Eval Int := do
  let s ← get
  match s.assigned.lookup name with
  | some n => return n
  | none =>
    match valueOf ((s.values name).getD "") with
    | .ok n => return n
    | .error e => throw e

/-- The binary operators by rank, the loosest first; the logical ones apart. -/
def ranks : List (List String) :=
  [["|"], ["^"], ["&"], ["==", "!="], ["<", "<=", ">", ">="], ["<<", ">>"], ["+", "-"],
    ["*", "/", "%"]]

/-- The operator that an assignment applies first. -/
def assigning? (o : String) : Option String :=
  if ["<<=", ">>=", "+=", "-=", "*=", "/=", "%=", "&=", "|=", "^=", "="].contains o then
    some (String.ofList o.toList.dropLast)
  else none

def ofBool (b : Bool) : Int := if b then 1 else 0

def word (v : Int) : Nat := (v % UInt64.size).toNat

def apply (op : String) (a b : Int) : Except Fault Int :=
  match op with
  | "" => .ok b
  | "|" => .ok (wrap (word a ||| word b : Nat))
  | "^" => .ok (wrap (word a ^^^ word b : Nat))
  | "&" => .ok (wrap (word a &&& word b : Nat))
  | "==" => .ok (ofBool (a = b))
  | "!=" => .ok (ofBool (a ≠ b))
  | "<" => .ok (ofBool (a < b))
  | "<=" => .ok (ofBool (a ≤ b))
  | ">" => .ok (ofBool (a > b))
  | ">=" => .ok (ofBool (a ≥ b))
  | "<<" => .ok (wrap (a <<< (word b % 64)))
  | ">>" => .ok (a >>> (word b % 64))
  | "+" => .ok (wrap (a + b))
  | "-" => .ok (wrap (a - b))
  | "*" => .ok (wrap (a * b))
  | "/" => if b = 0 then .error .division else .ok (wrap (Int.tdiv a b))
  | "%" => if b = 0 then .error .division else .ok (Int.tmod a b)
  | _ => .error .junk

/-- Applies an operator, unless its operands are only passed over. -/
def applyIf (skip : Bool) (op : String) (a b : Int) : Eval Int :=
  if skip then return b
  else
    match apply op a b with
    | .ok v => return v
    | .error e => throw e

mutual

/-- An assignment or a condition. What is passed over has no effect. -/
def expression (fuel : Nat) (skip : Bool) : Eval Int := do
  match fuel with
  | 0 => throw .junk
  | fuel + 1 =>
    match (← get).rest with
    | .name x :: .operator o :: _ =>
      match assigning? o with
      | none => condition fuel skip
      | some op =>
        advance
        advance
        let v ← expression fuel skip
        if skip then return v
        let old ← if op = "" then pure 0 else valueIn x
        let v ← applyIf false op old v
        modify fun s => { s with assigned := (x, v) :: s.assigned }
        return v
    | _ => condition fuel skip

def condition (fuel : Nat) (skip : Bool) : Eval Int := do
  match fuel with
  | 0 => throw .junk
  | fuel + 1 =>
    let c ← either fuel skip
    if ← accept "?" then
      let a ← expression fuel (skip || c == 0)
      unless ← accept ":" do throw .colon
      let b ← condition fuel (skip || c != 0)
      return if c ≠ 0 then a else b
    return c

def either (fuel : Nat) (skip : Bool) : Eval Int := do
  match fuel with
  | 0 => throw .junk
  | fuel + 1 =>
    let a ← both fuel skip
    if ← accept "||" then
      let b ← either fuel (skip || a != 0)
      return ofBool (a ≠ 0 || b ≠ 0)
    return a

def both (fuel : Nat) (skip : Bool) : Eval Int := do
  match fuel with
  | 0 => throw .junk
  | fuel + 1 =>
    let a ← binary fuel skip ranks
    if ← accept "&&" then
      let b ← both fuel (skip || a == 0)
      return ofBool (a ≠ 0 && b ≠ 0)
    return a

/-- Operators of one rank and those that bind tighter. -/
def binary (fuel : Nat) (skip : Bool) (rs : List (List String)) : Eval Int := do
  match fuel with
  | 0 => throw .junk
  | fuel + 1 =>
    match rs with
    | [] => unary fuel skip
    | r :: rs =>
      let a ← binary fuel skip rs
      chain fuel skip r rs a

def chain (fuel : Nat) (skip : Bool) (r : List String) (rs : List (List String)) (a : Int) :
    Eval Int := do
  match fuel with
  | 0 => throw .junk
  | fuel + 1 =>
    match ← next? with
    | some (.operator o) =>
      if r.contains o then
        advance
        let b ← binary fuel skip rs
        let v ← applyIf skip o a b
        chain fuel skip r rs v
      else return a
    | _ => return a

def unary (fuel : Nat) (skip : Bool) : Eval Int := do
  match fuel with
  | 0 => throw .junk
  | fuel + 1 =>
    match ← next? with
    | some (.number n) =>
      advance
      return n
    | some (.name x) =>
      advance
      if skip then return 0 else valueIn x
    | some (.operator "(") =>
      advance
      let v ← expression fuel skip
      unless ← accept ")" do throw .parenthesis
      return v
    | some (.operator "-") =>
      advance
      return wrap (-(← unary fuel skip))
    | some (.operator "+") =>
      advance
      unary fuel skip
    | some (.operator "!") =>
      advance
      return ofBool ((← unary fuel skip) = 0)
    | some (.operator "~") =>
      advance
      return -(← unary fuel skip) - 1
    | _ => throw .primary

end

/-- The value of an expression, and what it assigns, the last first. The empty one is zero. -/
def evaluate (text : List Char) (values : String → Option String) :
    Except Fault (Int × List (String × Int)) :=
  match tokens (text.length + 1) text with
  | [] => .ok (0, [])
  | ts =>
    match (expression (40 * ts.length + 40) false).run { rest := ts, values } with
    | .error e => .error e
    | .ok (v, s) => if s.rest.isEmpty then .ok (v, s.assigned) else .error .junk

end AssistedShell.Script.Arithmetic
