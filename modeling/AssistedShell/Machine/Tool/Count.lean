import AssistedShell.Machine.Tool.Copy

/-! Counting lines, words and bytes: `wc`. -/

namespace AssistedShell.Machine.Tool

/-- Lines, words, characters and bytes, and the width of the widest line. -/
structure Tally where
  lines : Nat := 0
  words : Nat := 0
  bytes : Nat := 0
  widest : Nat := 0

def isWordBreak (b : UInt8) : Bool := b == 32 || (9 ≤ b && b ≤ 13)

/-- Words: runs that hold a visible byte, between blanks. -/
def wordsIn (inside : Bool) (n : Nat) : List UInt8 → Nat
  | [] => if inside then n + 1 else n
  | b :: r =>
    if isWordBreak b then wordsIn false (if inside then n + 1 else n) r
    else wordsIn (inside || isVisible b) n r

/-- The widest of the lines, one of which is `column` wide so far. A tab goes on to the next
multiple of eight. -/
def widestIn (column best : Nat) : List UInt8 → Nat
  | [] => max best column
  | b :: r =>
    if b == 10 || b == 12 || b == 13 then widestIn 0 (max best column) r
    else if b == 9 then widestIn (column / 8 * 8 + 8) best r
    else widestIn (if isVisible b then column + 1 else column) best r

def Tally.of (b : ByteArray) : Tally :=
  ⟨b.toList.count 10, wordsIn false 0 b.toList, b.size, widestIn 0 0 b.toList⟩

def Tally.add (a b : Tally) : Tally :=
  ⟨a.lines + b.lines, a.words + b.words, a.bytes + b.bytes, max a.widest b.widest⟩

/-- The columns that the options ask for, each at least `width` wide. -/
def Tally.row (t : Tally) (a : Arguments) (width : Nat) (name : String) : String :=
  let all := a.options.isEmpty
  let columns :=
    (if all || a.has 'l' then [t.lines] else []) ++ (if all || a.has 'w' then [t.words] else []) ++
      (if a.has 'm' then [t.bytes] else []) ++ (if all || a.has 'c' then [t.bytes] else []) ++
      (if a.has 'L' then [t.widest] else [])
  let cell := fun n : Nat =>
    let s := toString n
    String.ofList (List.replicate (width - s.length) ' ') ++ s
  " ".intercalate (columns.map cell) ++ (if name.isEmpty then "" else " " ++ name) ++ "\n"

/-- The size of a plain file behind a name, or none if its size cannot be known beforehand. -/
def sizeOf? (c : Context) (name : String) : Act (Option Nat) := fun s =>
  let node :=
    if name = "-" then
      match (c.file? 0).bind (s.files[·]?) with
      | some ⟨.node id, _, _, _, _⟩ => s.disk.get? id
      | _ => none
    else (s.disk.find c.directory true name).toOption.map (·.2)
  match node.map Node.content with
  | some (Content.file b) => (some b.size, s)
  | _ => (none, s)

/-- Whether a name leads nowhere. -/
def isMissing (c : Context) (name : String) : Act Bool := fun s =>
  (name ≠ "-" && !s.disk.present c.directory name, s)

/-- How wide the columns of `wc` are. -/
def columnWidth (c : Context) (a : Arguments) (names : List String) : Act Nat := do
  if names.length = 1 && a.options.length = 1 then return 1
  let mut total := 0
  let mut least := 1
  for name in names do
    match ← sizeOf? c name with
    | some n => total := total + n
    | none => unless ← isMissing c name do least := 7
  return max least (toString total).length

def wc (c : Context) (args : List String) : Act Termination := do
  let known : Known := {
    flags := "lwcmL"
    names := [("lines", 'l'), ("words", 'w'), ("bytes", 'c'), ("chars", 'm'),
      ("max-line-length", 'L')] }
  match known.read args with
  | .error m => usage c m 1
  | .ok a =>
    let a := { a with options := (a.options.map (·.1)).eraseDups.map fun k => (k, "") }
    let names := sources a.operands
    let width ← columnWidth c a names
    let mut status := 0
    let mut now := c.now
    let mut total : Tally := {}
    for name in names do
      let shown := if a.operands.isEmpty then "" else name
      match ← contentOf c name with
      | .error .isDirectory =>
        let c := c.later now
        let what := if a.operands.isEmpty then quote "standard input" else quoteIfNeeded name
        report c (what ++ ": Is a directory")
        c.say (Tally.row {} a width shown)
        status := 1
      | .error e =>
        report (c.later now) (quoteIfNeeded name ++ ": " ++ e.text)
        status := 1
      | .ok (data, ready) =>
        now := max now ready
        let t := Tally.of data.bytes
        total := total.add t
        (c.later now).say (t.row a width shown)
    if names.length > 1 then (c.later now).say (total.row a width "total")
    return (c.later now).exit status

end AssistedShell.Machine.Tool
