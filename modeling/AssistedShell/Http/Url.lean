import AssistedShell.Text.Blank
import AssistedShell.Text.Numeral

/-! Web addresses: the parts of an address and its normal form. Slashes and
backslashes are one, dotted segments are resolved, a default port is left out,
and what may not stand in a part is written as percent escapes. -/

namespace AssistedShell.Http

open Text (digit? number? splitAll)

/-- An address of the web. -/
structure Url where
  scheme : String
  host : String
  port : Option Nat
  path : String
  query : Option String
  fragment : Option String
  deriving DecidableEq, Repr, Inhabited

/-- Why a text is no address of the web: it is no address, or one of another kind. -/
inductive UrlFault where
  | malformed
  | otherScheme
  deriving DecidableEq, Repr, Inhabited

namespace Url

def hexDigits : List Char := "0123456789ABCDEF".toList

/-- A byte as a percent escape. -/
def escape (b : UInt8) : List Char :=
  ['%', hexDigits.getD (b.toNat / 16) '0', hexDigits.getD (b.toNat % 16) '0']

/-- A text with every character of `set`, every control and all beyond ASCII escaped. -/
def encode (set : List Char) (cs : List Char) : List Char :=
  cs.flatMap fun c =>
    if c.toNat ≤ 0x1F || c.toNat ≥ 0x7F || set.contains c then
      c.toString.toUTF8.toList.flatMap escape
    else [c]

def fragmentSet : List Char := [' ', '"', '<', '>', Char.ofNat 0x60]

def pathSet : List Char := fragmentSet ++ ['#', '?', '\x7b', '\x7d']

def querySet : List Char := [' ', '"', '#', '<', '>', '\'']

/-- The characters behind percent escapes, as bytes. -/
def decodePercent : List Char → List UInt8
  | [] => []
  | '%' :: a :: b :: r =>
    match digit? 16 a, digit? 16 b with
    | some x, some y => UInt8.ofNat (x * 16 + y) :: decodePercent r
    | _, _ => 0x25 :: decodePercent (a :: b :: r)
  | c :: r => c.toString.toUTF8.toList ++ decodePercent r

/-- The pieces of a text between the characters `c`. -/
def pieces (c : Char) : List Char → List (List Char) := splitAll (· == c)

/-- A part of a numeric address: decimal, octal after a zero, or hexadecimal after `0x`. -/
def addressPart? : List Char → Option Nat
  | [] => none
  | ['0'] => some 0
  | '0' :: 'x' :: r => number? 16 r
  | '0' :: 'X' :: r => number? 16 r
  | '0' :: r => number? 8 r
  | cs => number? 10 cs

/-- Whether a host must be a numeric address: its last label is a number. -/
def endsInNumber (labels : List (List Char)) : Bool :=
  let labels := if labels.getLast? == some [] then labels.dropLast else labels
  match labels.getLast? with
  | none => false
  | some l => l != [] && (l.all Char.isDigit || ((l.take 2 == ['0', 'x'] || l.take 2 == ['0', 'X'])
      && (number? 16 (l.drop 2)).isSome))

/-- The four parts of a numeric address. -/
def address? (labels : List (List Char)) : Option String :=
  let labels := if labels.getLast? == some [] then labels.dropLast else labels
  if labels.length > 4 then none
  else
    match labels.mapM addressPart? with
    | none => none
    | some parts =>
      match parts.getLast? with
      | none => none
      | some last =>
        let front := parts.dropLast
        if front.any (· > 255) || last ≥ Nat.pow 256 (5 - parts.length) then none
        else
          let value := (front.mapIdx fun i p => p * Nat.pow 256 (3 - i)).foldl (· + ·) last
          some (".".intercalate ([3, 2, 1, 0].map fun i => toString (value / Nat.pow 256 i % 256)))

/-- A character that no host name may hold. -/
def isForbidden (c : Char) : Bool :=
  c.toNat ≤ 0x20 || c.toNat == 0x7F || "#/:<>?@[\\]^|%".toList.contains c

/-- A group of a bracketed address. -/
def group? (cs : List Char) : Option Nat :=
  if cs.isEmpty || cs.length > 4 then none else number? 16 cs

/-- A decimal byte, written without a zero in front. -/
def decimalByte? (cs : List Char) : Option Nat :=
  if cs.isEmpty || cs.length > 3 || (cs.length > 1 && cs.head? == some '0') then none
  else (number? 10 cs).filter (· < 256)

/-- The last groups of a bracketed address: one, or two written as a numeric address. -/
def lastGroups? (cs : List Char) : Option (List Nat) :=
  if cs.contains '.' then
    match (pieces '.' cs).mapM decimalByte? with
    | some [a, b, c, d] => some [a * 256 + b, c * 256 + d]
    | _ => none
  else (group? cs).map ([·])

/-- The groups between the colons of half a bracketed address. -/
def groups? (cs : List Char) : Option (List Nat) :=
  if cs.isEmpty then some []
  else
    match (pieces ':' cs).getLast? with
    | none => none
    | some last => do return (← (pieces ':' cs).dropLast.mapM group?) ++ (← lastGroups? last)

/-- The text before the first double colon and the text after it. -/
def atGap? : List Char → Option (List Char × List Char)
  | ':' :: ':' :: r => some ([], r)
  | c :: r => (atGap? r).map fun (a, b) => (c :: a, b)
  | [] => none

/-- The eight groups of a bracketed address. A double colon stands for at least one zero. -/
def allGroups? (cs : List Char) : Option (List Nat) :=
  match atGap? cs with
  | none => (groups? cs).filter (·.length == 8)
  | some (a, b) => do
    let x ← groups? a
    let y ← groups? b
    if a.contains '.' || x.length + y.length > 7 then none
    else return x ++ List.replicate (8 - x.length - y.length) 0 ++ y

/-- The first of the longest runs of zeros, two at least: where it starts, and its length. -/
def zeroRun? (groups : List Nat) : Option (Nat × Nat) :=
  let runs := (List.range groups.length).map fun i =>
    (i, ((groups.drop i).takeWhile (· == 0)).length)
  let longest := runs.foldl (fun best r => if r.2 > best.2 then r else best) (0, 1)
  if longest.2 > 1 then some longest else none

/-- The normal form of a bracketed address: the longest run of zeros is a double colon. -/
def bracketed? (cs : List Char) : Option String := do
  let groups ← allGroups? cs
  let written := fun gs : List Nat =>
    ":".intercalate (gs.map fun g => String.ofList (Nat.toDigits 16 g))
  match zeroRun? groups with
  | none => return "[" ++ written groups ++ "]"
  | some (start, length) =>
    return "[" ++ written (groups.take start) ++ "::" ++ written (groups.drop (start + length))
      ++ "]"

/-- The normal form of a host. -/
def host? (cs : List Char) : Option String :=
  match cs with
  | [] => none
  | '[' :: r => if r.getLast? == some ']' then bracketed? r.dropLast else none
  | cs =>
    match String.fromUTF8? ⟨(decodePercent cs).toArray⟩ with
    | none => none
    | some s =>
      let name := s.toList.map Char.toLower
      if name.isEmpty || name.any isForbidden then none
      else if endsInNumber (pieces '.' name) then address? (pieces '.' name)
      else some (String.ofList name)

/-- The host and the port of an authority, after the user's name if there is one. -/
def hostAndPort? (defaultPort : Nat) (cs : List Char) : Option (String × Option Nat) :=
  let cs := (cs.reverse.takeWhile (· ≠ '@')).reverse
  let tail := cs.reverse.takeWhile (fun c => c ≠ ':' && c ≠ ']')
  let (host, port) :=
    if (cs.reverse.drop tail.length).head? == some ':' then
      (cs.take (cs.length - tail.length - 1), some tail.reverse)
    else (cs, none)
  match host? host, port with
  | none, _ => none
  | some h, none => some (h, none)
  | some h, some [] => some (h, none)
  | some h, some p =>
    match number? 10 p with
    | none => none
    | some n => if n > 65535 then none else some (h, if n = defaultPort then none else some n)

def isDot (s : List Char) : Bool :=
  let s := s.map Char.toLower
  s == ['.'] || s == "%2e".toList

def isDotDot (s : List Char) : Bool :=
  let s := s.map Char.toLower
  s == "..".toList || s == ".%2e".toList || s == "%2e.".toList || s == "%2e%2e".toList

/-- Resolves dotted segments; the segments so far stand last first. -/
def resolve : List (List Char) → List (List Char) → List (List Char)
  | done, [] => done.reverse
  | done, [s] =>
    if isDotDot s then ([] :: done.tail).reverse
    else if isDot s then ([] :: done).reverse
    else (s :: done).reverse
  | done, s :: r =>
    if isDotDot s then resolve done.tail r
    else if isDot s then resolve done r
    else resolve (s :: done) r

/-- The normal form of a path that begins with a slash, or is empty. -/
def normalPath (cs : List Char) : List Char :=
  let cs := cs.map fun c => if c = '\\' then '/' else c
  let segments := resolve [] (pieces '/' (cs.drop 1))
  segments.flatMap fun s => '/' :: encode pathSet s

/-- Reads an address. -/
def ofText (text : String) : Except UrlFault Url :=
  let isEdge := fun c : Char => c.toNat ≤ 0x20
  let cs := ((text.toList.dropWhile isEdge).reverse.dropWhile isEdge).reverse
  let cs := cs.filter fun c => c ≠ '\t' && c ≠ '\n' && c ≠ '\r'
  let isScheme := fun c : Char => c.isAlphanum || c == '+' || c == '-' || c == '.'
  let scheme := cs.takeWhile isScheme
  let rest := cs.dropWhile isScheme
  if !(scheme.head?.map Char.isAlpha).getD false || rest.head? != some ':' then .error .malformed
  else
    let scheme := String.ofList (scheme.map Char.toLower)
    if scheme ≠ "http" && scheme ≠ "https" then .error .otherScheme
    else
      let rest := (rest.drop 1).dropWhile fun c => c == '/' || c == '\\'
      let ends := fun c : Char => c == '/' || c == '\\' || c == '?' || c == '#'
      let authority := rest.takeWhile (!ends ·)
      let rest := rest.dropWhile (!ends ·)
      match hostAndPort? (if scheme = "http" then 80 else 443) authority with
      | none => .error .malformed
      | some (host, port) =>
        let path := rest.takeWhile fun c => c ≠ '?' && c ≠ '#'
        let rest := rest.dropWhile fun c => c ≠ '?' && c ≠ '#'
        let query :=
          if rest.head? == some '?' then some ((rest.drop 1).takeWhile (· ≠ '#')) else none
        let rest := rest.dropWhile (· ≠ '#')
        let fragment := if rest.isEmpty then none else some (rest.drop 1)
        .ok ⟨scheme, host, port, String.ofList (normalPath path),
          query.map fun q => String.ofList (encode querySet q),
          fragment.map fun f => String.ofList (encode fragmentSet f)⟩

/-- The host with the port, if that is not the usual one. -/
def authority (u : Url) : String :=
  match u.port with
  | none => u.host
  | some p => u.host ++ ":" ++ toString p

/-- What a request asks the host for. -/
def target (u : Url) : String :=
  match u.query with
  | none => u.path
  | some q => u.path ++ "?" ++ q

/-- The address as it is written. -/
def written (u : Url) : String :=
  u.scheme ++ "://" ++ u.authority ++ u.target ++
    match u.fragment with
    | none => ""
    | some f => "#" ++ f

end Url

end AssistedShell.Http
