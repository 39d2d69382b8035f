import AssistedShell.Text.Numeral

/-! Settings as text in the format TOML: one key and one value on a line, the
value a string or a whole number. Tables, arrays and values of other types have
no place in settings and make the text unreadable. -/

namespace AssistedShell.Toml

inductive Value where
  | text (text : String)
  | number (value : Int)
  deriving DecidableEq, Repr, Inhabited

/-- What is read from the front of a text, and what stands after it. -/
abbrev Read (α : Type) := Option (α × List Char)

def isGap (c : Char) : Bool := c == ' ' || c == '\t'

def skipGap (cs : List Char) : List Char := cs.dropWhile isGap

/-- A character that may stand in comments and strings as it is. -/
def isPlain (c : Char) : Bool := c == '\t' || (' ' ≤ c && c ≠ '\x7f')

/-! ### Strings -/

/-- The body of a string up to its closing quote; with `escapes`, a backslash protects the
character after it. -/
def body (quote : Char) (escapes : Bool) : List Char → Read (List Char)
  | [] => none
  | '\\' :: c :: r =>
    if escapes then (body quote escapes r).map fun (s, rest) => ('\\' :: c :: s, rest)
    else if c = quote then some (['\\'], r)
    else (body quote escapes (c :: r)).map fun (s, rest) => ('\\' :: s, rest)
  | c :: r =>
    if c = quote then some ([], r)
    else (body quote escapes r).map fun (s, rest) => (c :: s, rest)

/-- The body of a string of many lines up to its three closing quotes; up to two quotes right
before those belong to the body. -/
def longBody (quote : Char) (escapes : Bool) : List Char → Read (List Char)
  | [] => none
  | [_] => none
  | [_, _] => none
  | a :: b :: c :: r =>
    if a = quote ∧ b = quote ∧ c = quote then
      let extra := (r.take 2).takeWhile (· = quote)
      some (extra, r.drop extra.length)
    else if escapes && a = '\\' then
      (longBody quote escapes (c :: r)).map fun (s, rest) => (a :: b :: s, rest)
    else (longBody quote escapes (b :: c :: r)).map fun (s, rest) => (a :: s, rest)

/-- What a backslash makes of the letter after it. -/
def letter? : Char → Option Char
  | 'b' => some '\x08'
  | 't' => some '\t'
  | 'n' => some '\n'
  | 'f' => some '\x0c'
  | 'r' => some '\r'
  | '"' => some '"'
  | '\\' => some '\\'
  | _ => none

/-- The character of a number. -/
def scalar? (n : Nat) : Option Char := if n.isValidChar then some (Char.ofNat n) else none

/-- What the characters before this one ask of it. -/
inductive Mode where
  | plain
  /-- The next character completes an escape. -/
  | escape
  /-- Digits of a character's number are still to come. -/
  | digits (owed value : Nat)
  /-- A backslash at a line's end swallows blanks and newlines. -/
  | swallow (newline : Bool)

/-- The text that the body of a string with escapes stands for. -/
def unescape? : Mode → List Char → Option (List Char)
  | .plain, [] => some []
  | .swallow true, [] => some []
  | _, [] => none
  | .escape, c :: r =>
    if c = 'u' then unescape? (.digits 4 0) r
    else if c = 'U' then unescape? (.digits 8 0) r
    else if isGap c then unescape? (.swallow false) r
    else if c = '\n' then unescape? (.swallow true) r
    else if c = '\r' then unescape? (.swallow false) r
    else (letter? c).bind fun x => (unescape? .plain r).map (x :: ·)
  | .digits owed value, c :: r =>
    (Text.digit? 16 c).bind fun d =>
      let value := value * 16 + d
      if owed ≤ 1 then (scalar? value).bind fun x => (unescape? .plain r).map (x :: ·)
      else unescape? (.digits (owed - 1) value) r
  | .swallow newline, c :: r =>
    if isGap c || c = '\r' then unescape? (.swallow newline) r
    else if c = '\n' then unescape? (.swallow true) r
    else if !newline then none
    else if c = '\\' then unescape? .escape r
    else (unescape? .plain r).map (c :: ·)
  | .plain, c :: r =>
    if c = '\\' then unescape? .escape r else (unescape? .plain r).map (c :: ·)

/-- Whether a body of many lines holds only what it may: a carriage return comes right before a
newline. -/
def isLongPlain : List Char → Bool
  | [] => true
  | '\r' :: '\n' :: r => isLongPlain r
  | c :: r => (isPlain c || c == '\n') && isLongPlain r

/-- A body of many lines without the newline right after the opening quotes. -/
def dropFirstNewline : List Char → List Char
  | '\n' :: r => r
  | '\r' :: '\n' :: r => r
  | cs => cs

/-- A string on one line; the opening quote is read already. -/
def short (quote : Char) (cs : List Char) : Option (List Char × List Char) := do
  let (s, rest) ← body quote (quote == '"') cs
  if !s.all isPlain || s.any (· == '\n') then none
  else if quote == '"' then return (← unescape? .plain s, rest)
  else return (s, rest)

/-- A string of many lines; the opening quotes are read already. -/
def long (quote : Char) (cs : List Char) : Option (List Char × List Char) := do
  let (s, rest) ← longBody quote (quote == '"') (dropFirstNewline cs)
  if !isLongPlain s then none
  else if quote == '"' then return (← unescape? .plain s, rest)
  else return (s, rest)

/-- Any string. -/
def string? : List Char → Read (List Char)
  | '"' :: '"' :: '"' :: r => long '"' r
  | '\'' :: '\'' :: '\'' :: r => long '\'' r
  | '"' :: r => short '"' r
  | '\'' :: r => short '\'' r
  | _ => none

/-! ### Numbers -/

/-- The number that digits write, with single underscores between them on demand. -/
def digits? (base : Nat) (cs : List Char) : Option Nat :=
  let groups := cs.splitOn '_'
  if groups.any (·.isEmpty) then none else Text.number? base groups.flatten

/-- A number in base ten, which begins with no zero unless that is all of it. -/
def decimal? : List Char → Option Nat
  | ['0'] => some 0
  | '0' :: _ => none
  | cs => digits? 10 cs

def number? : List Char → Option Int
  | '0' :: 'x' :: r => (digits? 16 r).map Int.ofNat
  | '0' :: 'o' :: r => (digits? 8 r).map Int.ofNat
  | '0' :: 'b' :: r => (digits? 2 r).map Int.ofNat
  | '+' :: r => (decimal? r).map Int.ofNat
  | '-' :: r => (decimal? r).map fun n => -(n : Int)
  | cs => (decimal? cs).map Int.ofNat

/-! ### Lines -/

def isKeyChar (c : Char) : Bool := c.isAlphanum || c == '_' || c == '-'

def key? (cs : List Char) : Read (List Char) :=
  match cs with
  | '"' :: r => short '"' r
  | '\'' :: r => short '\'' r
  | _ =>
    let key := cs.takeWhile isKeyChar
    if key.isEmpty then none else some (key, cs.drop key.length)

/-- Whether a character ends a value that is no string. -/
def endsScalar (c : Char) : Bool := isGap c || c == '\n' || c == '\r' || c == '#'

def value? (cs : List Char) : Read Value :=
  match cs with
  | '"' :: _ | '\'' :: _ => (string? cs).map fun (s, rest) => (.text (String.ofList s), rest)
  | _ =>
    let word := cs.takeWhile (!endsScalar ·)
    (number? word).map fun n => (.number n, cs.drop word.length)

/-- What follows the end of a line, before which only blanks and a comment may stand. -/
def lineEnd? (cs : List Char) : Option (List Char) :=
  let cs :=
    match skipGap cs with
    | '#' :: r => r.dropWhile isPlain
    | cs => cs
  match cs with
  | [] => some []
  | '\n' :: r => some r
  | '\r' :: '\n' :: r => some r
  | _ => none

/-- A key with its value. -/
def pair? (cs : List Char) : Option ((String × Value) × List Char) := do
  let (key, rest) ← key? cs
  match skipGap rest with
  | '=' :: r =>
    let (value, rest) ← value? (skipGap r)
    return ((String.ofList key, value), rest)
  | _ => none

/-- The pairs of a text of at most `fuel` lines. -/
def pairs? : Nat → List Char → Option (List (String × Value))
  | _, [] => some []
  | 0, _ => none
  | fuel + 1, cs =>
    match lineEnd? cs with
    | some rest => pairs? fuel rest
    | none => do
      let (pair, rest) ← pair? (skipGap cs)
      let rest ← lineEnd? rest
      return pair :: (← pairs? fuel rest)

/-- The pairs of a text, whose keys all differ. A byte order mark in front is skipped. -/
def read? (text : String) : Option (List (String × Value)) :=
  let cs :=
    match text.toList with
    | '\ufeff' :: r => r
    | cs => cs
  (pairs? (cs.length + 1) cs).filter fun ps => decide (ps.map (·.1)).Nodup

end AssistedShell.Toml
