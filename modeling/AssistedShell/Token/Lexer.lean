import AssistedShell.Text.Blank
import AssistedShell.Token

/-! Words and operators of a line. Blanks and operators outside quotes end a
word; double quotes group and honour the backslash, single quotes group all.
A backslash takes the next character literally, and an escaped newline is
nothing at all. A quote without its partner reaches to the end of the line. -/

namespace AssistedShell.Token

/-- Where the scan stands: outside quotes, or inside one of the two kinds. -/
inductive Quoting where
  | plain | double | single
  deriving DecidableEq, Repr

/-- The word being read, last character first; none between words. -/
abbrev Partial := Option (List Char)

/-- One more character for the word. -/
def Partial.push (w : Partial) (c : Char) : Partial := some (c :: w.getD [])

/-- A word exists from here on, if only an empty one. -/
def Partial.opened (w : Partial) : Partial := some (w.getD [])

/-- The finished word, if there is one. -/
def Partial.finish : Partial → List Token
  | none => []
  | some w => [.word (String.ofList w.reverse)]

/-- The operator that a single character is. -/
def operator? : Char → Option Token
  | '|' => some .pipe
  | '&' => some .background
  | '<' => some (.redirect .input)
  | '>' => some (.redirect .output)
  | _ => none

/-- The tokens of the rest of a line, from a given state of the scan. -/
def scan : Quoting → Partial → List Char → List Token
  | _, w, [] => w.finish
  | .single, w, c :: r => if c = '\'' then scan .plain w r else scan .single (w.push c) r
  | .double, w, '\\' :: [] => w.finish
  | .double, w, '\\' :: c :: r => if c = '\n' then scan .double w r else scan .double (w.push c) r
  | .double, w, c :: r => if c = '"' then scan .plain w r else scan .double (w.push c) r
  | .plain, w, '\\' :: [] => w.finish
  | .plain, w, '\\' :: c :: r => if c = '\n' then scan .plain w r else scan .plain (w.push c) r
  | .plain, w, '<' :: '<' :: r => w.finish ++ .redirect .hereDoc :: scan .plain none r
  | .plain, w, '>' :: '>' :: r => w.finish ++ .redirect .append :: scan .plain none r
  | .plain, w, c :: r =>
    if Text.isBlank c then w.finish ++ scan .plain none r
    else if c = '"' then scan .double w.opened r
    else if c = '\'' then scan .single w.opened r
    else
      match operator? c with
      | some t => w.finish ++ t :: scan .plain none r
      | none => scan .plain (w.push c) r

/-- The tokens of a line. -/
def ofChars (cs : List Char) : List Token := scan .plain none cs

/-- The tokens of a line. -/
def ofLine (s : String) : List Token := ofChars s.toList

end AssistedShell.Token
