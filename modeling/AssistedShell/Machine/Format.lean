import AssistedShell.Machine.Tool.Basic
import AssistedShell.Text.Numeral

/-! Formatted output: escapes and conversions of a format, which is used again
as long as arguments are left. -/

namespace AssistedShell.Machine.Format

/-- What a format gives: bytes, whether output ends for good, complaints, and the number of
arguments used. -/
structure Result where
  bytes : List UInt8 := []
  stopped : Bool := false
  /-- A conversion is none. -/
  broken : Bool := false
  complaints : List String := []
  /-- Remarks that are no complaints. -/
  warnings : List String := []
  used : Nat := 0
  deriving Inhabited

/-- How the two programs that format differ. -/
structure Dialect where
  /-- The complaint about an argument that is no number. -/
  notNumber : String → String
  /-- The complaint about an argument that only begins as a number. -/
  halfNumber : String → String
  /-- The complaint about an argument too large for a number. -/
  tooLarge : String → String
  /-- The complaint about a conversion that is none. -/
  notConversion : String → String
  /-- The complaint about a format that ends within a conversion. -/
  unfinished : String → String
  /-- Whether escapes by hexadecimal number are known, a format may end the output, and an empty
  argument is no number. -/
  rich : Bool

def isOctal (c : Char) : Bool := '0' ≤ c && c ≤ '7'

def octalValue (cs : List Char) : Nat := cs.foldl (fun n c => n * 8 + (c.toNat - '0'.toNat)) 0

/-- The byte that a letter after a backslash stands for. -/
def letter? : Char → Option UInt8
  | 'a' => some 7
  | 'b' => some 8
  | 'f' => some 12
  | 'n' => some 10
  | 'r' => some 13
  | 't' => some 9
  | 'v' => some 11
  | '\\' => some 92
  | 'e' => some 27
  | _ => none

def utf8 (c : Char) : List UInt8 := c.toString.toUTF8.toList

/-- What follows a backslash: its bytes (none where output stops) and the rest. `zero` tells
whether a number begins with a zero of its own. -/
def escape (rich zero : Bool) (cs : List Char) : Option (List UInt8) × List Char :=
  match cs with
  | [] => (some [92], [])
  | c :: r =>
    match letter? c with
    | some b => (some [b], r)
    | none =>
      if c = 'c' then (none, [])
      else if c = '"' && rich then (some [34], r)
      else if isOctal c then
        let cs := if zero && c = '0' then r else c :: r
        let digits := (cs.take 3).takeWhile isOctal
        (some [UInt8.ofNat (octalValue digits % 256)], cs.drop digits.length)
      else if c = 'x' && rich && (r.head?.bind (Text.digit? 16)).isSome then
        let digits := (r.take 2).takeWhile fun c => (Text.digit? 16 c).isSome
        let n := (Text.number? 16 digits).getD 0
        (some [UInt8.ofNat n], r.drop digits.length)
      else (some (92 :: utf8 c), r)

theorem length_escape_le (rich zero : Bool) (cs : List Char) :
    (escape rich zero cs).2.length ≤ cs.length := by
  unfold escape
  split
  · simp
  · split
    · simp
    · repeat' split
      all_goals simp only [List.length_nil, List.length_cons, List.length_drop]
      all_goals omega

/-- A text with its escapes carried out; `true` where output stops. -/
def unescape (rich zero : Bool) : List Char → List UInt8 × Bool
  | [] => ([], false)
  | '\\' :: r =>
    match _h : escape rich zero r with
    | (none, _) => ([], true)
    | (some bs, rest) =>
      let (more, stop) := unescape rich zero rest
      (bs ++ more, stop)
  | c :: r =>
    let (more, stop) := unescape rich zero r
    (utf8 c ++ more, stop)
termination_by cs => cs.length
decreasing_by
  · have := length_escape_le rich zero r
    rw [_h] at this
    simp only [List.length_cons] at this ⊢
    omega
  · simp

/-- The flags, width and precision of a conversion. -/
structure Spec where
  left : Bool := false
  plus : Bool := false
  space : Bool := false
  alternate : Bool := false
  zero : Bool := false
  width : Nat := 0
  precision : Option Nat := none
  deriving Inhabited

def padded (spec : Spec) (s : List UInt8) : List UInt8 :=
  let fill := List.replicate (spec.width - s.length) 32
  if spec.left then s ++ fill else fill ++ s

/-- A number with its sign and lead, filled up with zeros where asked. No digit is left of zero
without any places. -/
def number (spec : Spec) (sign lead digits : String) : List UInt8 :=
  let digits :=
    match spec.precision with
    | some 0 => if digits = "0" then "" else digits
    | some p => String.ofList (List.replicate (p - digits.length) '0') ++ digits
    | none =>
      if spec.zero && !spec.left then
        String.ofList (List.replicate (spec.width - sign.length - lead.length - digits.length) '0')
          ++ digits
      else digits
  padded spec (sign ++ lead ++ digits).toUTF8.toList

def signed (spec : Spec) (v : Int) : List UInt8 :=
  let sign := if v < 0 then "-" else if spec.plus then "+" else if spec.space then " " else ""
  number spec sign "" (toString v.natAbs)

def inBase (base : Nat) (upper : Bool) (n : Nat) : String :=
  let s := String.ofList (Nat.toDigits base n)
  if upper then s.map Char.toUpper else s

/-- A number in a base other than ten, with its lead where asked, except for zero. -/
def unsigned (spec : Spec) (base : Nat) (upper : Bool) (lead : String) (n : Nat) : List UInt8 :=
  number spec "" (if spec.alternate && n ≠ 0 then lead else "") (inBase base upper n)

/-- A negative number as the machine word that holds it. -/
def word (v : Int) : Nat := (v % UInt64.size).toNat

/-- The number that an argument writes in decimal, octal or hexadecimal, and whether all of it
does. -/
def argument (s : String) : Option (Int × Bool) :=
  match s.toList with
  | '\'' :: c :: _ => some (c.toNat, true)
  | '"' :: c :: _ => some (c.toNat, true)
  | cs =>
    let cs := cs.dropWhile fun c => c == ' ' || c == '\t' || c == '\n'
    let (negative, cs) :=
      match cs with
      | '-' :: r => (true, r)
      | '+' :: r => (false, r)
      | _ => (false, cs)
    let (base, cs) :=
      match cs with
      | '0' :: x :: h :: r =>
        if (x = 'x' || x = 'X') && (Text.digit? 16 h).isSome then (16, h :: r) else (8, cs)
      | '0' :: _ => (8, cs)
      | _ => (10, cs)
    let isDigit := fun c => (Text.digit? base c).isSome
    let digits := cs.takeWhile isDigit
    if digits.isEmpty then none
    else
      let n := (Text.number? base digits).getD 0
      some (if negative then -(n : Int) else n, digits.length == cs.length)

/-- The value of a numeric argument, with the complaint that it earns. A word without sign takes
negative numbers too. -/
def numeric (d : Dialect) (hasSign : Bool) (arg : Option String) : Int × List String :=
  match arg with
  | none => (0, [])
  | some "" => (0, if d.rich then [d.notNumber ""] else [])
  | some s =>
    match argument s with
    | none => (0, [d.notNumber s])
    | some (v, whole) =>
      let half : Int := (UInt64.size / 2 : Nat)
      let all : Int := (UInt64.size : Nat)
      let clamped :=
        if hasSign then max (-half) (min (half - 1) v)
        else if -all < v && v < all then v
        else all - 1
      if clamped ≠ v then (clamped, [d.tooLarge s])
      else (v, if whole then [] else [d.halfNumber s])

/-- Reads the flags of a conversion. -/
def flags (spec : Spec) : List Char → Spec × List Char
  | '-' :: r => flags { spec with left := true } r
  | '+' :: r => flags { spec with plus := true } r
  | ' ' :: r => flags { spec with space := true } r
  | '#' :: r => flags { spec with alternate := true } r
  | '0' :: r => flags { spec with zero := true } r
  | cs => (spec, cs)

/-- Carries out a conversion on an argument; `bare` tells that nothing stands before its letter. -/
def convert (d : Dialect) (bare : Bool) (spec : Spec) (conversion : Char) (arg : Option String) :
    Option (List UInt8 × Bool × List String) :=
  let text := fun bs : List UInt8 =>
    padded spec (match spec.precision with
      | some p => bs.take p
      | none => bs)
  match conversion with
  | 's' => some (text (arg.getD "").toUTF8.toList, false, [])
  | 'b' =>
    let (bs, stop) := unescape d.rich true (arg.getD "").toList
    if d.rich && !bare then none else some (text bs, stop, [])
  | 'q' =>
    if d.rich && bare then some ((Tool.quoteIfNeeded (arg.getD "")).toUTF8.toList, false, [])
    else none
  | 'c' => some (padded spec [((arg.getD "").toUTF8.toList.head?).getD 0], false, [])
  | 'd' | 'i' =>
    let (v, cs) := numeric d true arg
    some (signed spec v, false, cs)
  | 'u' =>
    let (v, cs) := numeric d false arg
    some (number spec "" "" (toString (word v)), false, cs)
  | 'o' =>
    let (v, cs) := numeric d false arg
    some (unsigned spec 8 false "0" (word v), false, cs)
  | 'x' =>
    let (v, cs) := numeric d false arg
    some (unsigned spec 16 false "0x" (word v), false, cs)
  | 'X' =>
    let (v, cs) := numeric d false arg
    some (unsigned spec 16 true "0X" (word v), false, cs)
  | _ => none

def natOf (cs : List Char) : Nat := cs.foldl (fun n c => n * 10 + (c.toNat - '0'.toNat)) 0

/-- A width or a number of places: digits, or a star for an argument. The number is negative only
if an argument says so. -/
def measure (d : Dialect) (cs : List Char) (args : List String) :
    Int × List Char × List String × Nat :=
  match cs with
  | '*' :: r => ((numeric d true args.head?).1, r, args.tail, if args.isEmpty then 0 else 1)
  | _ => (natOf (cs.takeWhile Char.isDigit), cs.dropWhile Char.isDigit, args, 0)

/-- Reads what stands between the percent sign and the letter of a conversion: the rest of the
format and of the arguments, and the number of arguments used. -/
def readSpec (d : Dialect) (cs : List Char) (args : List String) :
    Spec × List Char × List String × Nat :=
  let (spec, cs) := flags {} cs
  let (width, cs, args, used) := measure d cs args
  let spec := { spec with width := width.natAbs, left := spec.left || width < 0 }
  let (spec, cs, args, more) :=
    match cs with
    | '.' :: r =>
      let (p, r, args, more) := measure d r args
      ({ spec with precision := if p < 0 then none else some p.toNat }, r, args, more)
    | _ => (spec, cs, args, 0)
  let cs := if d.rich then cs.dropWhile ("hlLjtz".toList.contains ·) else cs
  (spec, cs, args, used + more)

/-- One pass through a format, at most `fuel` steps long. -/
def pass (d : Dialect) : Nat → List Char → List String → Result → Result
  | 0, _, _, acc => acc
  | _, [], _, acc => acc
  | fuel + 1, '\\' :: r, args, acc =>
    match escape d.rich false r with
    | (none, _) =>
      if d.rich then { acc with stopped := true }
      else pass d fuel (r.drop 1) args { acc with bytes := acc.bytes ++ [92, 99] }
    | (some bs, rest) => pass d fuel rest args { acc with bytes := acc.bytes ++ bs }
  | fuel + 1, '%' :: '%' :: r, args, acc =>
    pass d fuel r args { acc with bytes := acc.bytes ++ [37] }
  | fuel + 1, '%' :: cs, args, acc =>
    let (spec, r, args, used) := readSpec d cs args
    let fail := fun (complaint : String) =>
      { acc with complaints := acc.complaints ++ [complaint], stopped := true, broken := true }
    let written := fun (rest : List Char) =>
      String.ofList ('%' :: cs.take (cs.length - rest.length))
    match r with
    | [] => fail (d.unfinished (written []))
    | c :: r =>
      match convert d (r.length + 1 = cs.length) spec c args.head? with
      | none => fail (d.notConversion (written r))
      | some (bs, stop, cs) =>
        let acc := { acc with
          bytes := acc.bytes ++ bs
          stopped := stop
          complaints := acc.complaints ++ cs
          used := acc.used + used + (if args.isEmpty then 0 else 1) }
        if stop then acc else pass d fuel r args.tail acc
  | fuel + 1, c :: r, args, acc => pass d fuel r args { acc with bytes := acc.bytes ++ utf8 c }

/-- The whole output of a format for its arguments. -/
def run (d : Dialect) (format : List Char) : Nat → List String → Result → Result
  | 0, _, acc => acc
  | fuel + 1, args, acc =>
    let r := pass d (format.length + 1) format args { acc with used := 0 }
    let left := args.drop r.used
    match left with
    | [] => r
    | first :: _ =>
      if r.stopped then r
      else if r.used = 0 then
        let remark := "warning: ignoring excess arguments, starting with " ++ Tool.quote first
        if d.rich then { r with warnings := [remark] } else r
      else run d format fuel left r

/-- The output of a format, and the complaints. -/
def render (d : Dialect) (format : String) (args : List String) : Result :=
  run d format.toList (args.length + 1) args {}

/-- The system's own program. -/
def tool : Dialect where
  notNumber s := Tool.quote s ++ ": expected a numeric value"
  halfNumber s := Tool.quote s ++ ": value not completely converted"
  tooLarge s := Tool.quote s ++ ": Numerical result out of range"
  notConversion s := s ++ ": invalid conversion specification"
  unfinished s := s ++ ": invalid conversion specification"
  rich := true

/-- The command of the script language. -/
def builtin : Dialect where
  notNumber s := s ++ ": expected numeric value"
  halfNumber s := s ++ ": not completely converted"
  tooLarge s := s ++ ": Numerical result out of range"
  notConversion s := s ++ ": invalid directive"
  unfinished _ := "missing format character"
  rich := false

end AssistedShell.Machine.Format
