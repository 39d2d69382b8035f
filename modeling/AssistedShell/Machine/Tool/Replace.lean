import AssistedShell.Machine.Format

/-! Replacing bytes one by one: `tr`. -/

namespace AssistedShell.Machine.Tool

def bytesBetween (a b : UInt8) : List UInt8 :=
  (List.range (b.toNat + 1 - a.toNat)).map fun (i : Nat) => UInt8.ofNat (a.toNat + i)

def classOf? (name : String) : Option (List UInt8) :=
  let all := bytesBetween 0 255
  let upper := bytesBetween 65 90
  let lower := bytesBetween 97 122
  let digit := bytesBetween 48 57
  match name with
  | "upper" => some upper
  | "lower" => some lower
  | "digit" => some digit
  | "alpha" => some (upper ++ lower)
  | "alnum" => some (digit ++ upper ++ lower)
  | "space" => some (bytesBetween 9 13 ++ [32])
  | "blank" => some [9, 32]
  | "punct" => some (all.filter fun b => isVisible b && b != 32 &&
      !(digit.contains b || upper.contains b || lower.contains b))
  | "print" => some (all.filter isVisible)
  | "graph" => some (all.filter fun b => isVisible b && b != 32)
  | "cntrl" => some (bytesBetween 0 31 ++ [127])
  | "xdigit" => some (digit ++ bytesBetween 65 70 ++ bytesBetween 97 102)
  | _ => none

/-- A part of a set of bytes. -/
inductive SetPart where
  | bytes (all : List UInt8)
  /-- A byte so many times; none stands for as often as needed. -/
  | repeated (byte : UInt8) (times : Option Nat)
  deriving Repr, Inhabited

/-- A byte as written, perhaps as an escape, and the rest. -/
def unitOf : List UInt8 → UInt8 × List UInt8
  | 92 :: r =>
    let text := r.map fun b => Char.ofNat b.toNat
    match Format.escape false false text with
    | (some [b], rest) => (b, r.drop (text.length - rest.length))
    | (some (92 :: b :: _), rest) => (b, r.drop (text.length - rest.length))
    | _ => (92, r)
  | b :: r => (b, r)
  | [] => (0, [])

/-- The repetition `[b*n]` at the front of a set, and the rest. A number that begins with zero is
octal, and zero or none means as often as needed. -/
def repetition? (cs : List UInt8) : Option (SetPart × List UInt8) :=
  match cs with
  | 91 :: r =>
    match unitOf r with
    | (b, 42 :: r) =>
      let digits := (r.takeWhile (· != 93)).map fun b => Char.ofNat b.toNat
      match r.dropWhile (· != 93) with
      | 93 :: rest =>
        if !digits.all Char.isDigit then none
        else
          let n := (Text.number? (if digits.head? = some '0' then 8 else 10) digits).getD 0
          some (.repeated b (if n = 0 then none else some n), rest)
      | _ => none
    | _ => none
  | _ => none

/-- A byte as a message shows it. -/
def shownUnit (b : UInt8) : String := if isVisible b then (Char.ofNat b.toNat).toString else octal b

/-- The parts of a set as written: escapes, ranges, repetitions and classes. -/
def partsOf (fuel : Nat) (cs : List UInt8) : Except String (List SetPart) :=
  match fuel with
  | 0 => .ok []
  | fuel + 1 =>
    match cs, repetition? cs with
    | [], _ => .ok []
    | _, some (part, rest) => (partsOf fuel rest).map (part :: ·)
    | 91 :: 58 :: r, none =>
      let name := String.ofList ((r.takeWhile (· ≠ 58)).map fun b => Char.ofNat b.toNat)
      match classOf? name, r.dropWhile (· ≠ 58) with
      | some l, 58 :: 93 :: rest => (partsOf fuel rest).map (.bytes l :: ·)
      | none, 58 :: 93 :: _ => .error ("invalid character class " ++ quote name)
      | _, _ => (partsOf fuel (58 :: r)).map (.bytes [91] :: ·)
    | cs, none =>
      let (a, rest) := unitOf cs
      match rest with
      | 45 :: b :: r =>
        let (z, rest) := unitOf (b :: r)
        if z < a then
          .error ("range-endpoints of '" ++ shownUnit a ++ "-" ++ shownUnit z ++
            "' are in reverse collating sequence order")
        else (partsOf fuel rest).map (.bytes (bytesBetween a z) :: ·)
      | _ => (partsOf fuel rest).map (.bytes [a] :: ·)

/-- The bytes of a set; an open repetition fills it up to `size`. -/
def expand (parts : List SetPart) (size : Nat) : List UInt8 :=
  let fixed := parts.foldl (fun n p =>
    match p with
    | .bytes l => n + l.length
    | .repeated _ (some k) => n + k
    | .repeated _ none => n) 0
  parts.flatMap fun p =>
    match p with
    | .bytes l => l
    | .repeated b (some k) => List.replicate k b
    | .repeated b none => List.replicate (size - fixed) b

/-- Runs of one byte of the set shrunk to one. -/
def squeeze (set : List UInt8) : List UInt8 → List UInt8
  | a :: b :: r =>
    if a == b && set.contains a then squeeze set (b :: r) else a :: squeeze set (b :: r)
  | l => l
termination_by l => l.length

/-- The complaint about the number of sets, if it is wrong. -/
def setsFault? (a : Arguments) : Option String :=
  let both := "\nTwo strings must be given when "
  match a.operands with
  | [] => some "missing operand"
  | [one] =>
    if a.has 'd' && a.has 's' then
      some ("missing operand after " ++ quote one ++ both ++ "both deleting and squeezing repeats.")
    else if !a.has 'd' && !a.has 's' then
      some ("missing operand after " ++ quote one ++ both ++ "translating.")
    else none
  | [_, two] =>
    if a.has 'd' && !a.has 's' then
      some ("extra operand " ++ quote two ++
        "\nOnly one string may be given when deleting without squeezing repeats.")
    else none
  | _ :: _ :: three :: _ => some ("extra operand " ++ quote three)

def tr (c : Context) (args : List String) : Act Termination := do
  let known : Known := {
    flags := "dscCt"
    names := [("delete", 'd'), ("squeeze-repeats", 's'), ("complement", 'c'),
      ("truncate-set1", 't')]
    placement := .inFront }
  match known.read args with
  | .error m => usage c m 1
  | .ok a =>
    if let some m := setsFault? a then return ← usage c m 1
    let parts := fun s : String => partsOf (s.utf8ByteSize + 1) s.toUTF8.toList
    match parts (a.operands.headD ""), parts (a.operands.getD 1 "") with
    | .error m, _ | _, .error m =>
      report c m
      return c.exit 1
    | .ok first, .ok second =>
      let one := expand first 0
      let one :=
        if a.has 'c' || a.has 'C' then (bytesBetween 0 255).filter (!one.contains ·) else one
      let two := expand second one.length
      let replaces := a.operands.length = 2 && !a.has 'd'
      if replaces && two.isEmpty && !a.has 't' then
        report c "when not truncating set1, string2 must be non-empty"
        return c.exit 1
      let one := if replaces && a.has 't' then one.take two.length else one
      match ← c.readAll 0 with
      | .error e =>
        report c ("read error: " ++ e.text)
        return c.exit 1
      | .ok (data, ready) =>
        let c := c.later ready
        let change : UInt8 → Option UInt8 := fun b =>
          if a.has 'd' then (if one.contains b then none else some b)
          else if !replaces then some b
          else
            match one.reverse.idxOf? b with
            | some i => some (two.getD (one.length - 1 - i) (two.getLast?.getD b))
            | none => some b
        let out := data.filterMap change
        let squeezed := if a.has 's' then (if a.operands.length = 2 then two else one) else []
        let out :=
          if a.has 's' then ⟨⟨(squeeze squeezed out.bytes.toList).toArray⟩, out.cycle⟩ else out
        let _ ← c.writeStream 1 out
        return c.exit 0

end AssistedShell.Machine.Tool
