/-! Blank characters, trimming and lines. A blank is a character with the
Unicode property White_Space; a line ends at a newline, and one carriage return
right before that newline belongs to the ending. -/

namespace AssistedShell.Text

/-- The property White_Space. -/
def isBlank (c : Char) : Bool :=
  let n := c.toNat
  (9 ≤ n && n ≤ 13) || n == 0x20 || n == 0x85 || n == 0xA0 || n == 0x1680
    || (0x2000 ≤ n && n ≤ 0x200A) || n == 0x2028 || n == 0x2029 || n == 0x202F
    || n == 0x205F || n == 0x3000

theorem isBlank_of_isWhitespace {c : Char} (h : c.isWhitespace = true) : isBlank c = true := by
  simp only [Char.isWhitespace, Bool.or_eq_true, decide_eq_true_eq] at h
  rcases h with ((rfl | rfl) | rfl) | rfl <;> decide

/-- A text without the longest run at its end whose characters all satisfy `p`. -/
def dropEndWhile (p : Char → Bool) (cs : List Char) : List Char :=
  (cs.reverse.dropWhile p).reverse

def trimStart (cs : List Char) : List Char := cs.dropWhile isBlank

def trimEnd (cs : List Char) : List Char := dropEndWhile isBlank cs

def trim (cs : List Char) : List Char := trimEnd (trimStart cs)

/-- Nothing but blanks. -/
def isAllBlank (cs : List Char) : Bool := cs.all isBlank

/-- The lines of a text. A newline at the end of the text opens no further line,
and a carriage return at the end of an unfinished line stays. -/
def lines : List Char → List (List Char)
  | [] => []
  | '\n' :: r => [] :: lines r
  | '\r' :: '\n' :: r => [] :: lines r
  | c :: r =>
    match lines r with
    | [] => [[c]]
    | l :: ls => (c :: l) :: ls

/-- The maximal runs of characters that fail `p`, empty ones included. -/
def splitAll (p : Char → Bool) : List Char → List (List Char)
  | [] => [[]]
  | c :: r =>
    match splitAll p r with
    | [] => [[c]]
    | l :: ls => if p c then [] :: l :: ls else (c :: l) :: ls

/-- The blank-free words of a text. -/
def words (cs : List Char) : List (List Char) :=
  (splitAll isBlank cs).filter (!·.isEmpty)

end AssistedShell.Text

namespace String

/-- The text without blanks at either end. -/
def trimBlank (s : String) : String := ofList (AssistedShell.Text.trim s.toList)

/-- The text without blanks at its end. -/
def trimBlankEnd (s : String) : String := ofList (AssistedShell.Text.trimEnd s.toList)

/-- Nothing but blanks. -/
def isAllBlank (s : String) : Bool := AssistedShell.Text.isAllBlank s.toList

/-- The lines of the text. -/
def textLines (s : String) : List String := (AssistedShell.Text.lines s.toList).map ofList

end String
