/-! Documents in the interchange format, read from bytes. A string keeps its
bytes as written: they need not be text as long as nobody asks for the text, and
neither need its escapes name characters. -/

namespace AssistedShell.Json

inductive Document where
  | null
  | bool (value : Bool)
  | number
  | string (written : List UInt8)
  | array (items : List Document)
  | object (members : List (List UInt8 × Document))
  deriving Repr, Inhabited

/-- A value read from the front of some bytes, and the bytes after it. -/
abbrev Read (α : Type) := Option (α × List UInt8)

def byte (c : Char) : UInt8 := c.toUInt8

/-- A blank of the format. -/
def isGap (b : UInt8) : Bool := b == 0x20 || b == 0x09 || b == 0x0A || b == 0x0D

def skipGap (bs : List UInt8) : List UInt8 := bs.dropWhile isGap

def isDigit (b : UInt8) : Bool := byte '0' ≤ b && b ≤ byte '9'

/-- The value of a hexadecimal digit. -/
def hexDigit? (b : UInt8) : Option Nat :=
  if isDigit b then some (b.toNat - 0x30)
  else if byte 'a' ≤ b && b ≤ byte 'f' then some (b.toNat - 0x57)
  else if byte 'A' ≤ b && b ≤ byte 'F' then some (b.toNat - 0x37)
  else none

/-- The number that four hexadecimal digits write. -/
def quad? (a b c d : UInt8) : Option Nat := do
  let a ← hexDigit? a
  let b ← hexDigit? b
  let c ← hexDigit? c
  let d ← hexDigit? d
  return ((a * 16 + b) * 16 + c) * 16 + d

/-- What a backslash makes of the character after it. -/
def simpleEscape? (b : UInt8) : Option UInt8 :=
  if b == byte '"' || b == byte '\\' || b == byte '/' then some b
  else if b == byte 'b' then some 0x08
  else if b == byte 'f' then some 0x0C
  else if b == byte 'n' then some 0x0A
  else if b == byte 'r' then some 0x0D
  else if b == byte 't' then some 0x09
  else none

/-- The bytes of a string up to its closing quote. -/
def readString : List UInt8 → Read (List UInt8)
  | [] => none
  | b :: r =>
    if b == byte '"' then some ([], r)
    else if b < 0x20 then none
    else if b == byte '\\' then
      match r with
      | [] => none
      | e :: r =>
        if (simpleEscape? e).isSome then
          (readString r).map fun (s, rest) => (b :: e :: s, rest)
        else if e == byte 'u' then
          match r with
          | h :: i :: j :: k :: r =>
            if (quad? h i j k).isSome then
              (readString r).map fun (s, rest) => (b :: e :: h :: i :: j :: k :: s, rest)
            else none
          | _ => none
        else none
    else (readString r).map fun (s, rest) => (b :: s, rest)

/-- One digit or more. -/
def readDigits (bs : List UInt8) : Option (List UInt8) :=
  if (bs.head?.map isDigit).getD false then some (bs.dropWhile isDigit) else none

/-- The exponent of a number, if there is one. -/
def readExponent (bs : List UInt8) : Option (List UInt8) :=
  match bs with
  | e :: r =>
    if e == byte 'e' || e == byte 'E' then
      match r with
      | s :: r' => if s == byte '+' || s == byte '-' then readDigits r' else readDigits r
      | [] => none
    else some bs
  | [] => some []

/-- The places of a number, if there are any. -/
def readFraction (bs : List UInt8) : Option (List UInt8) :=
  match bs with
  | d :: r => if d == byte '.' then readDigits r else some bs
  | [] => some []

/-- What follows a number. A number of several digits begins with no zero. -/
def readNumber (bs : List UInt8) : Option (List UInt8) :=
  let bs :=
    match bs with
    | m :: r => if m == byte '-' then r else bs
    | [] => []
  let whole :=
    match bs with
    | z :: r =>
      if z == byte '0' then (if (r.head?.map isDigit).getD false then none else some r)
      else readDigits bs
    | [] => none
  whole.bind readFraction |>.bind readExponent

/-- What follows a given word. -/
def readWord (word : String) (bs : List UInt8) : Option (List UInt8) :=
  let w := word.toUTF8.toList
  if w.isPrefixOf bs then some (bs.drop w.length) else none

mutual

/-- Reads a value of at most `fuel` nested parts. -/
def readValue : Nat → List UInt8 → Read Document
  | 0, _ => none
  | fuel + 1, bs =>
    match skipGap bs with
    | [] => none
    | b :: r =>
      if b == byte '"' then (readString r).map fun (s, rest) => (.string s, rest)
      else if b == byte '[' then
        match skipGap r with
        | c :: r' =>
          if c == byte ']' then some (.array [], r')
          else (readItems fuel r).map fun (items, rest) => (.array items, rest)
        | [] => none
      else if b == byte '\x7b' then
        match skipGap r with
        | c :: r' =>
          if c == byte '\x7d' then some (.object [], r')
          else (readMembers fuel r).map fun (ms, rest) => (.object ms, rest)
        | [] => none
      else if b == byte 'n' then (readWord "null" (b :: r)).map fun rest => (.null, rest)
      else if b == byte 't' then (readWord "true" (b :: r)).map fun rest => (.bool true, rest)
      else if b == byte 'f' then (readWord "false" (b :: r)).map fun rest => (.bool false, rest)
      else (readNumber (b :: r)).map fun rest => (.number, rest)

/-- Reads the items of an array and its closing bracket. -/
def readItems : Nat → List UInt8 → Read (List Document)
  | 0, _ => none
  | fuel + 1, bs =>
    match readValue fuel bs with
    | none => none
    | some (item, rest) =>
      match skipGap rest with
      | c :: r =>
        if c == byte ',' then (readItems fuel r).map fun (items, rest) => (item :: items, rest)
        else if c == byte ']' then some ([item], r)
        else none
      | [] => none

/-- Reads the members of an object and its closing brace. -/
def readMembers : Nat → List UInt8 → Read (List (List UInt8 × Document))
  | 0, _ => none
  | fuel + 1, bs =>
    match skipGap bs with
    | [] => none
    | q :: r =>
      if q != byte '"' then none
      else
        match readString r with
        | none => none
        | some (key, rest) =>
          match skipGap rest with
          | [] => none
          | c :: r =>
            if c != byte ':' then none
            else
              match readValue fuel r with
              | none => none
              | some (value, rest) =>
                match skipGap rest with
                | c :: r =>
                  if c == byte ',' then
                    (readMembers fuel r).map fun (ms, rest) => ((key, value) :: ms, rest)
                  else if c == byte '\x7d' then some ([(key, value)], r)
                  else none
                | [] => none

end

/-- The document that some bytes are, with nothing but blanks around it. -/
def Document.ofBytes? (bs : List UInt8) : Option Document :=
  match readValue (bs.length + 1) bs with
  | none => none
  | some (d, rest) => if (skipGap rest).isEmpty then some d else none

/-- The character of a number that stands for itself or, with `low`, for the pair. -/
def paired? (high low : Nat) : Option Char :=
  if 0xDC00 ≤ low && low ≤ 0xDFFF then
    some (Char.ofNat (0x10000 + (high - 0xD800) * 0x400 + (low - 0xDC00)))
  else none

/-- The bytes that a string stands for; none if an escape names no character. -/
def unescape? : List UInt8 → Option (List UInt8)
  | [] => some []
  | b :: r =>
    if b != byte '\\' then (unescape? r).map (b :: ·)
    else
      match r with
      | [] => none
      | e :: r =>
        match simpleEscape? e with
        | some c => (unescape? r).map (c :: ·)
        | none =>
          match r with
          | h :: i :: j :: k :: r =>
            match quad? h i j k with
            | none => none
            | some n =>
              if 0xDC00 ≤ n && n ≤ 0xDFFF then none
              else if 0xD800 ≤ n && n ≤ 0xDBFF then
                match r with
                | s :: u :: h :: i :: j :: k :: r =>
                  if s == byte '\\' && u == byte 'u' then
                    match (quad? h i j k).bind (paired? n) with
                    | none => none
                    | some c => (unescape? r).map (c.toString.toUTF8.toList ++ ·)
                  else none
                | _ => none
              else (unescape? r).map ((Char.ofNat n).toString.toUTF8.toList ++ ·)
          | _ => none

/-- The text of a string; none if it is no text. -/
def text? (written : List UInt8) : Option String :=
  (unescape? written).bind fun bs => String.fromUTF8? ⟨bs.toArray⟩

end AssistedShell.Json
