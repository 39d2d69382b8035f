import AssistedShell.Environment

/-! Environment references in a command line: a dollar sign with the longest
run of name characters after it, or with a name in braces. A backslash protects
the character after it, and a value is not read again. -/

namespace AssistedShell.Expansion

/-- The characters of a name that stands without braces. -/
def isNameChar (c : Char) : Bool := c.isAlphanum || c == '_'

/-- The value put in place of a reference; an unset variable has the empty one. -/
def value (lookup : String → Option String) (name : List Char) : List Char :=
  ((lookup (String.ofList name)).getD "").toList

/-- What follows a braced name: all after the first closing brace. -/
def afterBrace (cs : List Char) : List Char := (cs.dropWhile (· ≠ '}')).drop 1

theorem length_dropWhile_le {α : Type} (p : α → Bool) (l : List α) :
    (l.dropWhile p).length ≤ l.length := (List.dropWhile_sublist p).length_le

theorem length_afterBrace_le (cs : List Char) : (afterBrace cs).length ≤ cs.length := by
  have := length_dropWhile_le (fun c => decide (c ≠ '}')) cs
  simp only [afterBrace, List.length_drop]; omega

/-- Replaces every reference of a line by its value, in one pass. -/
def expand (lookup : String → Option String) : List Char → List Char
  | [] => []
  | '\\' :: c :: r => '\\' :: c :: expand lookup r
  | '$' :: '{' :: r =>
    value lookup (r.takeWhile (· ≠ '}')) ++ expand lookup (afterBrace r)
  | '$' :: c :: r =>
    if isNameChar c then
      value lookup (c :: r.takeWhile isNameChar) ++ expand lookup (r.dropWhile isNameChar)
    else '$' :: expand lookup (c :: r)
  | c :: r => c :: expand lookup r
termination_by cs => cs.length
decreasing_by
  all_goals simp only [List.length_cons]
  · omega
  · have := length_afterBrace_le r; omega
  · have := length_dropWhile_le isNameChar r; omega
  · omega
  · omega

/-- A line with its references replaced. -/
def line (lookup : String → Option String) (s : String) : String :=
  String.ofList (expand lookup s.toList)

end AssistedShell.Expansion
