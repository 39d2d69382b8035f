import AssistedShell.Pipeline.Reading
import Mathlib.Data.List.Basic

/-! Tokens written as a line. A word stands in double quotes, with a backslash
before each character that the expansion or the scan would take for something
else; an operator stands as it is, and a blank is between any two. Expansion and
scan read such a line alike, in pairs of a backslash and its character, so that
the expansion leaves it as it is and the scan gives the tokens back. -/

namespace AssistedShell

/-! ### The expansion by characters -/

namespace Expansion

variable (lookup : String → Option String)

theorem expand_nil : expand lookup [] = [] := by rw [expand]

theorem expand_escaped (c : Char) (r : List Char) :
    expand lookup ('\\' :: c :: r) = '\\' :: c :: expand lookup r := by
  rw [expand]

theorem expand_literal {c : Char} (hb : c ≠ '\\') (hd : c ≠ '$') (r : List Char) :
    expand lookup (c :: r) = c :: expand lookup r := by
  rw [expand]
  · intro c' r' h _
    exact hb h
  · intro r' h _
    exact hd h
  · intro c' r' h _
    exact hd h

theorem expand_literals {cs : List Char} (hc : ∀ c ∈ cs, c ≠ '\\' ∧ c ≠ '$') (r : List Char) :
    expand lookup (cs ++ r) = cs ++ expand lookup r := by
  induction cs with
  | nil => rfl
  | cons c cs ih =>
    obtain ⟨⟨hb, hd⟩, hcs⟩ := List.forall_mem_cons.mp hc
    rw [List.cons_append, expand_literal lookup hb hd, ih hcs]
    rfl

end Expansion

namespace Token

open Expansion (expand expand_nil expand_escaped expand_literal expand_literals)

/-! ### Writing -/

/-- Whether a character needs a backslash inside double quotes. -/
def isSpecial (c : Char) : Bool := c == '\\' || c == '"' || c == '$'

/-- A text as it is written inside double quotes. -/
def escape : List Char → List Char
  | [] => []
  | c :: cs => if isSpecial c then '\\' :: c :: escape cs else c :: escape cs

/-- A token as it is written. -/
def write : Token → List Char
  | .word w => '"' :: (escape w.toList ++ ['"'])
  | .pipe => ['|']
  | .background => ['&']
  | .redirect op => op.text.toList

/-- Tokens as they are written, with a blank between any two. -/
def writeAll : List Token → List Char
  | [] => []
  | [t] => write t
  | t :: u :: ts => write t ++ ' ' :: writeAll (u :: ts)

/-- The line that tokens are written as. -/
def line (ts : List Token) : String := String.ofList (writeAll ts)

@[simp] theorem write_input : write (.redirect .input) = ['<'] := by decide

@[simp] theorem write_hereDoc : write (.redirect .hereDoc) = ['<', '<'] := by decide

@[simp] theorem write_output : write (.redirect .output) = ['>'] := by decide

@[simp] theorem write_append : write (.redirect .append) = ['>', '>'] := by decide

/-! ### Expansion -/

theorem ne_of_not_isSpecial {c : Char} (hc : ¬ isSpecial c) : c ≠ '\\' ∧ c ≠ '"' ∧ c ≠ '$' := by
  simpa [isSpecial, and_assoc] using hc

section
variable (lookup : String → Option String)

/-- Each backslash of an escaped text protects the character it was written for. -/
theorem expand_escape (cs r : List Char) :
    expand lookup (escape cs ++ r) = escape cs ++ expand lookup r := by
  induction cs with
  | nil => rfl
  | cons c cs ih =>
    rw [escape]
    by_cases hc : isSpecial c
    · rw [if_pos hc, List.cons_append, List.cons_append, expand_escaped, ih]
      rfl
    · obtain ⟨hb, -, hd⟩ := ne_of_not_isSpecial hc
      rw [if_neg hc, List.cons_append, expand_literal lookup hb hd, ih]
      rfl

theorem expand_write (t : Token) (r : List Char) :
    expand lookup (write t ++ r) = write t ++ expand lookup r := by
  cases t with
  | word w =>
    rw [write, List.cons_append, List.append_assoc, expand_literal lookup (by decide) (by decide),
      expand_escape, expand_literals lookup (by simp)]
    simp
  | pipe | background => exact expand_literals lookup (by simp [write]) r
  | redirect op =>
    cases op with
    | _ => exact expand_literals lookup (by simp) r

theorem expand_writeAll (ts : List Token) :
    expand lookup (writeAll ts) = writeAll ts := by
  fun_induction writeAll ts with
  | case1 => exact expand_nil lookup
  | case2 t =>
    rw [← List.append_nil (write t), expand_write, expand_nil]
  | case3 t u ts ih =>
    rw [expand_write, expand_literal lookup (by decide) (by decide), ih]

end

/-! ### Scan -/

theorem scan_double_escaped (w : Partial) {c : Char} (hc : c ≠ '\n') (r : List Char) :
    scan .double w ('\\' :: c :: r) = scan .double (w.push c) r := if_neg hc

theorem scan_double_cons (w : Partial) {c : Char} (hb : c ≠ '\\') (r : List Char) :
    scan .double w (c :: r) =
      if c = '"' then scan .plain w r else scan .double (w.push c) r := by
  rw [scan.eq_def]
  split
  case h_5 heq =>
    obtain ⟨rfl, rfl⟩ := List.cons.inj heq
    rfl
  all_goals simp_all

/-- The scan takes an escaped text for the text. -/
theorem scan_escape (acc cs r : List Char) :
    scan .double (some acc) (escape cs ++ '"' :: r) = scan .plain (some (cs.reverse ++ acc)) r := by
  induction cs generalizing acc with
  | nil => exact scan_double_cons (some acc) (by decide) r
  | cons c cs ih =>
    rw [escape, List.reverse_cons, List.append_assoc, List.singleton_append]
    by_cases hc : isSpecial c
    · have hn : c ≠ '\n' := by
        rintro rfl
        cases hc
      rw [if_pos hc, List.cons_append, List.cons_append, scan_double_escaped _ hn]
      exact ih (c :: acc)
    · obtain ⟨hb, hq, -⟩ := ne_of_not_isSpecial hc
      rw [if_neg hc, List.cons_append, scan_double_cons _ hb, if_neg hq]
      exact ih (c :: acc)

theorem scan_plain_nil (w : Partial) : scan .plain w [] = w.finish := rfl

theorem scan_plain_blank (w : Partial) (r : List Char) :
    scan .plain w (' ' :: r) = w.finish ++ scan .plain none r := rfl

theorem scan_plain_quote (r : List Char) :
    scan .plain none ('"' :: r) = scan .double (some []) r := rfl

/-- What can follow a written token: nothing, or a blank. -/
def Apart (r : List Char) : Prop := r = [] ∨ ∃ r', r = ' ' :: r'

theorem Apart.head?_ne {r : List Char} (hr : Apart r) {c : Char} (hc : c ≠ ' ') :
    r.head? ≠ some c := by
  rcases hr with rfl | ⟨r', rfl⟩
  · nofun
  · exact fun h => hc (Option.some.inj h).symm

theorem scan_plain_of_apart {r : List Char} (hr : Apart r) (w : Partial) :
    scan .plain w r = w.finish ++ scan .plain none r := by
  rcases hr with rfl | ⟨r', rfl⟩
  · rw [scan_plain_nil, scan_plain_nil, Partial.finish, List.append_nil]
  · rw [scan_plain_blank, scan_plain_blank]
    rfl

theorem ne_of_operator? {c : Char} {t : Token} (hc : operator? c = some t) :
    ¬ Text.isBlank c ∧ c ≠ '"' ∧ c ≠ '\'' ∧ c ≠ '\\' := by
  rw [operator?.eq_def] at hc
  split at hc
  · decide
  · decide
  · decide
  · decide
  · cases hc

theorem scan_plain_operator {c : Char} {t : Token} (hc : operator? c = some t) {r : List Char}
    (hr : r.head? ≠ some c) : scan .plain none (c :: r) = t :: scan .plain none r := by
  obtain ⟨hb, hq, ha, he⟩ := ne_of_operator? hc
  rw [scan.eq_def]
  split
  case h_10 heq =>
    obtain ⟨rfl, rfl⟩ := List.cons.inj heq
    rw [if_neg hb, if_neg hq, if_neg ha, hc]
    rfl
  all_goals simp_all

theorem scan_write (t : Token) {r : List Char} (hr : Apart r) :
    scan .plain none (write t ++ r) = t :: scan .plain none r := by
  cases t with
  | word w =>
    rw [write, List.cons_append, List.append_assoc, List.singleton_append, scan_plain_quote,
      scan_escape, scan_plain_of_apart hr]
    simp [Partial.finish]
  | pipe => exact scan_plain_operator rfl (hr.head?_ne (by decide))
  | background => exact scan_plain_operator rfl (hr.head?_ne (by decide))
  | redirect op =>
    cases op with
    | input =>
      rw [write_input]
      exact scan_plain_operator rfl (hr.head?_ne (by decide))
    | output =>
      rw [write_output]
      exact scan_plain_operator rfl (hr.head?_ne (by decide))
    | hereDoc =>
      rw [write_hereDoc]
      rfl
    | append =>
      rw [write_append]
      rfl

theorem scan_writeAll (ts : List Token) : scan .plain none (writeAll ts) = ts := by
  fun_induction writeAll ts with
  | case1 => exact scan_plain_nil none
  | case2 t =>
    rw [← List.append_nil (write t), scan_write t (.inl rfl), scan_plain_nil]
    rfl
  | case3 t u ts ih =>
    rw [scan_write t (.inr ⟨_, rfl⟩), scan_plain_blank, ih]
    rfl

/-- Tokens written as a line are read back, whatever the variables are. -/
theorem line_read (lookup : String → Option String) (ts : List Token) (source : LineSource) :
    Expansion.line lookup (line ts) = line ts ∧ ofLine (line ts) = ts ∧
      Pipeline.ofLine lookup (line ts) source = Pipeline.ofTokens ts source := by
  have he : Expansion.line lookup (line ts) = line ts := by
    rw [Expansion.line, line, String.toList_ofList, expand_writeAll]
  have hs : ofLine (line ts) = ts := by
    rw [ofLine, line, String.toList_ofList, ofChars, scan_writeAll]
  refine ⟨he, hs, ?_⟩
  rw [Pipeline.ofLine, he, hs]

end Token

end AssistedShell
