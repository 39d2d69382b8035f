import AssistedShell.Machine.Tool.Copy
import AssistedShell.Text.Search
import AssistedShell.Text.Utf8

/-! Putting lines in order: `sort`. -/

namespace AssistedShell.Machine.Tool

def compareBytes (a b : List UInt8) : Ordering :=
  match a, b with
  | [], [] => .eq
  | [], _ => .lt
  | _, [] => .gt
  | x :: xs, y :: ys => if x < y then .lt else if y < x then .gt else compareBytes xs ys

/-- The number at the front of a line: its sign, its digits and its places. -/
def numberAt (line : List UInt8) : Int × Nat :=
  let cs := (line.map fun b => Char.ofNat b.toNat).dropWhile fun c => c == ' ' || c == '\t'
  let (negative, cs) :=
    match cs with
    | '-' :: r => (true, r)
    | _ => (false, cs)
  let whole := cs.takeWhile Char.isDigit
  let rest := cs.dropWhile Char.isDigit
  let places := if rest.head? == some '.' then (rest.drop 1).takeWhile Char.isDigit else []
  let padded := (places ++ List.replicate 20 '0').take 20
  let n : Int := Format.natOf (whole ++ padded)
  (if negative then -n else n, 20)

/-- A key field: from the first field to the last, counted from one. -/
structure SortKey where
  first : Nat
  last : Option Nat
  numeric : Bool
  reverse : Bool
  fold : Bool

/-- The fields of a line. Without a separator a field begins with its blanks. -/
def fieldsOf (separator : Option UInt8) (line : List UInt8) : List (List UInt8) :=
  let isGap := fun b : UInt8 => b == 32 || b == 9
  let rec split (sep : UInt8) : List UInt8 → List (List UInt8)
    | [] => [[]]
    | b :: r =>
      match split sep r with
      | [] => [[b]]
      | f :: fs => if b == sep then [] :: f :: fs else (b :: f) :: fs
  let rec runs (fuel : Nat) (l : List UInt8) : List (List UInt8) :=
    match fuel with
    | 0 => [l]
    | fuel + 1 =>
      if l.isEmpty then []
      else
        let front := l.takeWhile isGap
        let r := l.dropWhile isGap
        let f := front ++ r.takeWhile (!isGap ·)
        f :: runs fuel (r.dropWhile (!isGap ·))
  match separator with
  | some sep => split sep line
  | none => runs line.length line

def keyOf? (s : String) (numeric reverse fold : Bool) : Option SortKey :=
  let number := fun cs : List Char =>
    let digits := cs.takeWhile Char.isDigit
    if digits.isEmpty then none else some (Format.natOf digits)
  let halves := (Text.splitAt? ',' s.toList).getD (s.toList, [])
  let flags := (halves.1 ++ halves.2).filter Char.isAlpha
  (number halves.1).map fun first =>
    ⟨first, number halves.2, numeric || flags.contains 'n', reverse || flags.contains 'r',
      fold || flags.contains 'f'⟩

def foldCase (l : List UInt8) : List UInt8 :=
  l.map fun b => if 97 ≤ b && b ≤ 122 then b - 32 else b

def compareOn (separator : Option UInt8) (blanks : Bool) (k : Option SortKey)
    (numeric reverse fold : Bool)
    (a b : List UInt8) : Ordering :=
  let cut := fun l : List UInt8 =>
    let l :=
      match k with
      | none => l
      | some k =>
        let fs := fieldsOf separator l
        let upto := (k.last.getD fs.length) - (k.first - 1)
        let joined := ((fs.drop (k.first - 1)).take upto)
        match separator with
        | some sep => joined.intersperse [sep] |>.flatten
        | none => joined.flatten
    if blanks then l.dropWhile fun b => b == 32 || b == 9 else l
  let numeric := (k.map (·.numeric)).getD numeric
  let reverse := (k.map (·.reverse)).getD reverse
  let fold := (k.map (·.fold)).getD fold
  let o :=
    if numeric then compare (numberAt (cut a)).1 (numberAt (cut b)).1
    else if fold then compareBytes (foldCase (cut a)) (foldCase (cut b))
    else compareBytes (cut a) (cut b)
  if reverse then o.swap else o

/-- Neighbours that compare equal are one. -/
def dropRepeats (same : List UInt8 → List UInt8 → Bool) : List (List UInt8) → List (List UInt8)
  | a :: b :: r => if same a b then dropRepeats same (a :: r) else a :: dropRepeats same (b :: r)
  | l => l
termination_by l => l.length

/-- The complaint about a key, if there is one. -/
def keyFault? (s : String) : Option String :=
  let digits := s.toList.takeWhile Char.isDigit
  if digits.isEmpty then
    some ("invalid number at field start: invalid count at start of " ++ quote s)
  else if Format.natOf digits = 0 then
    some ("field number is zero: invalid field specification " ++ quote s)
  else none

/-- The complaint about a separator, if there is one. -/
def separatorFault? (s : String) : Option String :=
  if s = "\\0" then none
  else if s.isEmpty then some "empty tab"
  else if s.utf8ByteSize > 1 then some ("multi-character tab " ++ quote s)
  else none

/-- How the lines are compared. -/
structure Order where
  separator : Option UInt8
  blanks : Bool
  numeric : Bool
  reverse : Bool
  fold : Bool
  keys : List SortKey
  /-- Lines that agree on the keys are not told apart. -/
  keysOnly : Bool

namespace Order

def of (a : Arguments) : Order :=
  let numeric := a.has 'n'
  let reverse := a.has 'r'
  let fold := a.has 'f'
  let separator := (a.value? 't').bind fun s =>
    if s = "\\0" then some 0 else s.toUTF8.toList.head?
  { separator, numeric, reverse, fold
    blanks := a.has 'b'
    keys := a.options.filterMap fun (k, v) =>
      if k == 'k' then keyOf? v numeric reverse fold else none
    keysOnly := a.has 'u' || a.has 's' }

/-- Compares two lines by the keys. -/
def onKeys (o : Order) (x y : List UInt8) : Ordering :=
  if o.keys.isEmpty then compareOn o.separator o.blanks none o.numeric o.reverse o.fold x y
  else o.keys.foldl (fun r k =>
    r.then (compareOn o.separator o.blanks (some k) false false false x y)) .eq

/-- Compares two lines, at last by all their bytes. -/
def whole (o : Order) (x y : List UInt8) : Ordering :=
  if o.keysOnly then o.onKeys x y
  else (o.onKeys x y).then (if o.reverse then (compareBytes x y).swap else compareBytes x y)

/-- The first line that is out of order, with its number; without repeats if they are not
allowed. -/
def firstDisorder (o : Order) (strict : Bool) (n : Nat) : List (List UInt8) →
    Option (Nat × List UInt8)
  | x :: y :: r =>
    let bad := match o.whole x y with
      | .gt => true
      | .eq => strict
      | .lt => false
    if bad then some (n + 1, y) else o.firstDisorder strict (n + 1) (y :: r)
  | _ => none

end Order

/-- Writes lines to a file, or to standard output. -/
def writeLines (c : Context) (path? : Option String) (out : ByteArray) : Act Termination := do
  match path? with
  | none =>
    let _ ← c.writeBytes 1 out
    return c.exit 0
  | some path =>
    let s ← get
    match s.disk.openFile c.directory path { write := true, create := true } with
    | .ok (id, disk) =>
      set { s with disk := disk.setBytes id out }
      return c.exit 0
    | .error e =>
      report c ("open failed: " ++ quoteIfNeeded path ++ ": " ++ e.text)
      return c.exit 2

def sort (c : Context) (args : List String) : Act Termination := do
  let known : Known := {
    flags := "rnufbscCm"
    valued := "kto"
    names := [("reverse", 'r'), ("numeric-sort", 'n'), ("unique", 'u'), ("ignore-case", 'f'),
      ("ignore-leading-blanks", 'b'), ("stable", 's'), ("merge", 'm'), ("key", 'k'),
      ("field-separator", 't'), ("output", 'o')] }
  match known.read args with
  | .error m => usage c m 2
  | .ok a =>
    let fault? := a.options.findSome? fun (k, v) =>
      if k == 'k' then keyFault? v else if k == 't' then separatorFault? v else none
    if let some m := fault? then
      report c m
      return c.exit 2
    let checks := a.has 'c' || a.has 'C'
    if checks && a.operands.length > 1 then
      report c ("extra operand " ++ quote (a.operands.getD 1 "") ++ " not allowed with -c")
      return c.exit 2
    let mut now := c.now
    let mut lines : List (List UInt8) := []
    for name in sources a.operands do
      match ← contentOf c name with
      | .error .isDirectory =>
        report c ("read failed: " ++ quoteIfNeeded name ++ ": Is a directory")
        return c.exit 2
      | .error e =>
        report c ("cannot read: " ++ quoteIfNeeded name ++ ": " ++ e.text)
        return c.exit 2
      | .ok (data, ready) =>
        now := max now ready
        lines := lines ++ (byteLines data.bytes).map ByteArray.toList
    let order := Order.of a
    let c := c.later now
    if checks then
      match order.firstDisorder (a.has 'u') 1 lines with
      | none => return c.exit 0
      | some (n, line) =>
        unless a.has 'C' do
          report c ((sources a.operands).headD "-" ++ ":" ++ toString n ++ ": disorder: " ++
            Text.decodeLossy ⟨line.toArray⟩)
        return c.exit 1
    let sorted := lines.mergeSort fun x y => order.whole x y != .gt
    let sorted := if a.has 'u' then dropRepeats (fun x y => order.onKeys x y == .eq) sorted
      else sorted
    let out := sorted.foldl (fun acc l => acc ++ ⟨(l ++ [10]).toArray⟩) ByteArray.empty
    writeLines c (a.value? 'o') out

end AssistedShell.Machine.Tool
