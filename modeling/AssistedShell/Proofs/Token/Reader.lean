import AssistedShell.Proofs.Token.Writing
import Mathlib.Data.List.Induction

/-! The scan as a reader that takes one character after another and never looks
ahead. Where it stands among quotes and backslashes is a fold of its own, apart
from the words. An angle bracket outside quotes is held back until the next
character shows whether the operator is doubled; with that the reader gives the
tokens of the scan. -/

namespace AssistedShell

namespace Redirect

/-- The character that an operator consists of. -/
def sign : Redirect → Char
  | .input | .hereDoc => '<'
  | .output | .append => '>'

/-- The operator that one more character makes of an operator. -/
def doubledBy : Redirect → Char → Option Redirect
  | .input, '<' => some .hereDoc
  | .output, '>' => some .append
  | _, _ => none

theorem eq_sign_of_doubledBy {op op' : Redirect} {c : Char} (h : op.doubledBy c = some op') :
    c = op.sign := by
  rw [doubledBy.eq_def] at h
  split at h
  · rfl
  · rfl
  · cases h

theorem doubledBy_eq_none {op : Redirect} {c : Char} (h : c ≠ op.sign) : op.doubledBy c = none :=
  Option.eq_none_iff_forall_ne_some.mpr fun _ hd => h (eq_sign_of_doubledBy hd)

end Redirect

namespace Token

/-! ### Quotes and backslashes -/

/-- Where a text stands at its end: in which quotes, and whether a backslash
still has no character. -/
structure Stance where
  quoting : Quoting := .plain
  escaped : Bool := false
  deriving DecidableEq, Repr

def Stance.next (s : Stance) (c : Char) : Stance :=
  if s.escaped then { s with escaped := false }
  else
    match s.quoting with
    | .plain =>
      if c = '\\' then { s with escaped := true }
      else if c = '"' then { s with quoting := .double }
      else if c = '\'' then { s with quoting := .single }
      else s
    | .double =>
      if c = '\\' then { s with escaped := true }
      else if c = '"' then { s with quoting := .plain }
      else s
    | .single => if c = '\'' then { s with quoting := .plain } else s

/-- Where a text stands at its end. -/
def stance (a : List Char) : Stance := a.foldl Stance.next {}

/-- A text that ends outside quotes, with no backslash that has no character. -/
def Closed (a : List Char) : Prop := stance a = {}

instance (a : List Char) : Decidable (Closed a) := inferInstanceAs (Decidable (stance a = {}))

theorem stance_concat (a : List Char) (c : Char) : stance (a ++ [c]) = (stance a).next c := by
  rw [stance, List.foldl_append, ← stance]
  rfl

theorem Stance.next_blank {c : Char} (hb : Text.isBlank c) : Stance.next {} c = {} := by
  have hc : c ≠ '\\' ∧ c ≠ '"' ∧ c ≠ '\'' := by
    refine ⟨?_, ?_, ?_⟩ <;> rintro rfl <;> exact absurd hb (by decide)
  simp [next, hc]

theorem Stance.next_operator {c : Char} {t : Token} (hc : operator? c = some t) :
    Stance.next {} c = {} := by
  simp [next, ne_of_operator? hc]

theorem Stance.next_sign (op : Redirect) : Stance.next {} op.sign = {} := by
  cases op <;> rfl

/-! ### One character after another -/

/-- What a character that separates nothing does to the word being read. -/
def Partial.spell (w : Partial) (s : Stance) (c : Char) : Partial :=
  if s.escaped then if c = '\n' then w else w.push c
  else
    match s.quoting with
    | .plain => if c = '\\' then w else if c = '"' ∨ c = '\'' then w.opened else w.push c
    | .double => if c = '\\' ∨ c = '"' then w else w.push c
    | .single => if c = '\'' then w else w.push c

/-- An operator in quotes or after a backslash belongs to the word. -/
theorem Partial.spell_operator (w : Partial) {s : Stance} {c : Char} {t : Token}
    (hc : operator? c = some t) (hs : s ≠ {}) : w.spell s c = w.push c := by
  obtain ⟨hb, hd, hq, hn⟩ : c ≠ '\\' ∧ c ≠ '"' ∧ c ≠ '\'' ∧ c ≠ '\n' := by
    refine ⟨?_, ?_, ?_, ?_⟩ <;> rintro rfl <;> cases hc
  obtain ⟨q, e⟩ := s
  rw [spell]
  cases e with
  | true => simp [hn]
  | false =>
    cases q with
    | plain => exact absurd rfl hs
    | double => simp [hb, hd]
    | single => simp [hq]

/-- What was read of a line. -/
structure Reader where
  tokens : List Token := []
  /-- An operator that the next character may double. -/
  angle : Option Redirect := none
  word : Partial := none
  stance : Stance := {}

namespace Reader

/-- The operator held back is complete. -/
def settle (r : Reader) : Reader :=
  { r with tokens := r.tokens ++ r.angle.toList.map redirect, angle := none }

/-- The tokens, if nothing follows. -/
def finish (r : Reader) : List Token := r.tokens ++ (r.angle.toList.map redirect ++ r.word.finish)

/-- The reader right after an operator of one character. -/
def operated (tokens : List Token) : Token → Reader
  | .redirect op => { tokens, angle := some op }
  | t => { tokens := tokens ++ [t] }

def spell (r : Reader) (c : Char) : Reader :=
  { r with word := r.word.spell r.stance c, stance := r.stance.next c }

/-- Takes a character, with no operator held back. -/
def take (r : Reader) (c : Char) : Reader :=
  if r.stance = {} then
    if Text.isBlank c then { tokens := r.finish }
    else
      match operator? c with
      | some t => operated r.finish t
      | none => r.spell c
  else r.spell c

/-- Takes the next character. -/
def next (r : Reader) (c : Char) : Reader :=
  match r.angle.bind (·.doubledBy c) with
  | some op => { tokens := r.tokens ++ [redirect op] }
  | none => r.settle.take c

/-- Takes the characters of a text. -/
def run (r : Reader) (cs : List Char) : Reader := cs.foldl next r

@[simp] theorem run_cons (r : Reader) (c : Char) (cs : List Char) :
    r.run (c :: cs) = (r.next c).run cs := rfl

theorem run_append (r : Reader) (a b : List Char) : r.run (a ++ b) = (r.run a).run b :=
  List.foldl_append

theorem finish_settle (r : Reader) : r.settle.finish = r.finish := by
  simp [finish, settle]

/-! ### Steps -/

section
variable {r : Reader} {c : Char}

theorem next_eq_take (hn : r.angle.bind (·.doubledBy c) = none) : r.next c = r.settle.take c := by
  rw [next, hn]

theorem next_settle (hn : r.angle.bind (·.doubledBy c) = none) : r.settle.next c = r.next c := by
  rw [next_eq_take hn, next_eq_take rfl]
  simp [settle]

/-- Only an angle bracket is the second half of an operator. -/
theorem bind_doubledBy_eq_none (r : Reader) (hc : ∀ op : Redirect, c ≠ op.sign) :
    r.angle.bind (·.doubledBy c) = none :=
  Option.bind_eq_none_iff.mpr fun op _ => Redirect.doubledBy_eq_none (hc op)

/-- A blank completes all that was begun. -/
theorem next_blank (hs : r.stance = {}) (hb : Text.isBlank c) : r.next c = { tokens := r.finish } := by
  have hn : ∀ op : Redirect, c ≠ op.sign := by
    rintro op rfl
    cases op <;> exact absurd hb (by decide)
  rw [next_eq_take (r.bind_doubledBy_eq_none hn), take,
    if_pos (show r.settle.stance = {} from hs), if_pos hb, finish_settle]

/-- So does an operator, unless it is the second half of one. -/
theorem next_operator {t : Token} (hs : r.stance = {}) (hc : operator? c = some t)
    (hn : r.angle.bind (·.doubledBy c) = none) : r.next c = operated r.finish t := by
  rw [next_eq_take hn, take, if_pos (show r.settle.stance = {} from hs),
    if_neg (ne_of_operator? hc).1, hc, finish_settle]

/-- The second half of an operator. -/
theorem next_doubled {op op' : Redirect} (ha : r.angle = some op) (h : op.doubledBy c = some op') :
    r.next c = { tokens := r.tokens ++ [redirect op'] } := by
  rw [next, ha, Option.bind_some, h]

/-- All else belongs to a word, or is nothing. -/
theorem next_spelled (hn : r.angle.bind (·.doubledBy c) = none)
    (hc : r.stance = {} → ¬ Text.isBlank c ∧ operator? c = none) :
    r.next c = r.settle.spell c := by
  rw [next_eq_take hn, take]
  split_ifs with hs hb
  · exact absurd hb (hc hs).1
  · rw [(hc hs).2]
  · rfl

/-- What a character can do. -/
theorem next_cases (r : Reader) (c : Char) :
    (∃ op op', r.angle = some op ∧ op.doubledBy c = some op' ∧
      r.next c = { tokens := r.tokens ++ [redirect op'] }) ∨
    (r.stance = {} ∧ Text.isBlank c ∧ r.next c = { tokens := r.finish }) ∨
    (r.stance = {} ∧ ∃ t, operator? c = some t ∧ r.next c = operated r.finish t) ∨
    ((r.stance = {} → ¬ Text.isBlank c ∧ operator? c = none) ∧ r.next c = r.settle.spell c) := by
  rcases hn : r.angle.bind (·.doubledBy c) with _ | op'
  · by_cases hs : r.stance = {}
    · by_cases hb : Text.isBlank c
      · exact .inr (.inl ⟨hs, hb, next_blank hs hb⟩)
      · rcases hc : operator? c with _ | t
        · exact .inr (.inr (.inr ⟨fun _ => ⟨hb, rfl⟩, next_spelled hn fun _ => ⟨hb, hc⟩⟩))
        · exact .inr (.inr (.inl ⟨hs, t, rfl, next_operator hs hc hn⟩))
    · have hc (h : r.stance = {}) : ¬ Text.isBlank c ∧ operator? c = none := absurd h hs
      exact .inr (.inr (.inr ⟨hc, next_spelled hn hc⟩))
  · obtain ⟨op, ha, ho⟩ := Option.bind_eq_some_iff.mp hn
    exact .inl ⟨op, op', ha, ho, next_doubled ha ho⟩

end

theorem settle_of_angle {r : Reader} (ha : r.angle = none) : r.settle = r := by
  obtain ⟨tokens, angle, w, s⟩ := r
  cases ha
  simp [settle]

theorem run_quoted (tokens : List Token) (w : Partial) {s : Stance} (hs : s ≠ {}) (c : Char)
    (cs : List Char) :
    run ⟨tokens, none, w, s⟩ (c :: cs) = run ⟨tokens, none, w.spell s c, s.next c⟩ cs := by
  rw [run_cons, next_spelled rfl fun h => absurd h hs, settle_of_angle rfl]
  rfl

theorem run_plain (tokens : List Token) (w : Partial) {c : Char} (hb : ¬ Text.isBlank c)
    (hc : operator? c = none) (cs : List Char) :
    run ⟨tokens, none, w, {}⟩ (c :: cs) = run ⟨tokens, none, w.spell {} c, Stance.next {} c⟩ cs := by
  rw [run_cons, next_spelled rfl fun _ => ⟨hb, hc⟩, settle_of_angle rfl]
  rfl

/-! ### Operators held back -/

/-- An operator is complete when what follows does not double it. -/
theorem finish_run_settle {r : Reader} {cs : List Char}
    (h : ∀ c ∈ cs.head?, r.angle.bind (·.doubledBy c) = none) :
    (r.settle.run cs).finish = (r.run cs).finish := by
  cases cs with
  | nil => exact finish_settle r
  | cons c cs => rw [run_cons, run_cons, next_settle (h c rfl)]

theorem eq_sign_of_operator? {c : Char} {op : Redirect} (hc : operator? c = some (redirect op)) :
    c = op.sign := by
  rw [operator?.eq_def] at hc
  split at hc <;> cases hc <;> rfl

theorem finish_operated (tokens : List Token) (t : Token) :
    (operated tokens t).finish = tokens ++ [t] := by
  cases t <;> simp [operated, finish, Partial.finish]

theorem settle_operated (tokens : List Token) (t : Token) :
    (operated tokens t).settle = { tokens := tokens ++ [t] } := by
  cases t <;> simp [operated, settle]

/-- An operator is one token where its character is not the next one too. -/
theorem finish_run_operated (tokens : List Token) {c : Char} {t : Token} {cs : List Char}
    (hc : operator? c = some t) (h : ∀ op, t = redirect op → cs.head? ≠ some c) :
    ((operated tokens t).run cs).finish = (run { tokens := tokens ++ [t] } cs).finish := by
  rw [← settle_operated, finish_run_settle]
  intro d hd
  cases t with
  | redirect op =>
    rw [operated, Option.bind_some]
    apply Redirect.doubledBy_eq_none
    rintro rfl
    rw [eq_sign_of_operator? hc] at h
    exact h op rfl hd
  | _ => rfl

/-! ### The scan -/

/-- Reading from a place outside an escape, with no operator held back, is the scan. -/
theorem finish_run (tokens : List Token) (q : Quoting) (w : Partial) (cs : List Char) :
    (run ⟨tokens, none, w, ⟨q, false⟩⟩ cs).finish = tokens ++ scan q w cs := by
  -- A backslash is always met together with what follows it.
  have hne {c : Char} {r : List Char} (hn : c = '\\' → r = [] → False)
      (hr : ∀ d r', c = '\\' → r = d :: r' → False) : c ≠ '\\' := by
    intro hc
    cases r with
    | nil => exact hn hc rfl
    | cons d r => exact hr d r hc rfl
  fun_induction scan q w cs generalizing tokens with
  | case1 q w => rfl
  | case2 w r ih =>
    rw [run_quoted _ _ (by decide)]
    exact ih tokens
  | case3 w c r hc ih =>
    rw [run_quoted _ _ (by decide)]
    simpa [Partial.spell, Stance.next, hc] using ih tokens
  | case4 w =>
    rw [run_quoted _ _ (by decide)]
    rfl
  | case5 w r ih =>
    rw [run_quoted _ _ (by decide), run_quoted _ _ (by decide)]
    exact ih tokens
  | case6 w c r hc ih =>
    rw [run_quoted _ _ (by decide), run_quoted _ _ (by decide)]
    simpa [Partial.spell, Stance.next, hc] using ih tokens
  | case7 w r hn hr ih =>
    rw [run_quoted _ _ (by decide)]
    exact ih tokens
  | case8 w c r hn hr hc ih =>
    rw [run_quoted _ _ (by decide)]
    simpa [Partial.spell, Stance.next, hc, hne hn hr] using ih tokens
  | case9 w =>
    rw [run_plain _ _ (by decide) rfl]
    rfl
  | case10 w r ih =>
    rw [run_plain _ _ (by decide) rfl, run_quoted _ _ (by decide)]
    exact ih tokens
  | case11 w c r hc ih =>
    rw [run_plain _ _ (by decide) rfl, run_quoted _ _ (by decide)]
    simpa [Partial.spell, Stance.next, hc] using ih tokens
  | case12 w r ih =>
    rw [run_cons, run_cons, next_operator (r := ⟨tokens, none, w, {}⟩) rfl
      (rfl : operator? '<' = some (redirect .input)) rfl,
      next_doubled rfl (rfl : Redirect.input.doubledBy '<' = some .hereDoc), ih]
    simp [operated, finish]
  | case13 w r ih =>
    rw [run_cons, run_cons, next_operator (r := ⟨tokens, none, w, {}⟩) rfl
      (rfl : operator? '>' = some (redirect .output)) rfl,
      next_doubled rfl (rfl : Redirect.output.doubledBy '>' = some .append), ih]
    simp [operated, finish]
  | case14 w c r hn hr hd hg hb ih =>
    rw [run_cons, next_blank rfl hb, ih]
    simp [finish]
  | case15 w r _ _ _ _ _ ih =>
    rw [run_plain _ _ (by decide) rfl]
    exact ih tokens
  | case16 w r _ _ _ _ _ _ ih =>
    rw [run_plain _ _ (by decide) rfl]
    exact ih tokens
  | case17 w c r hn hr hd hg hb hq ha t hc ih =>
    have h : ∀ op, t = redirect op → r.head? ≠ some c := by
      rintro op rfl hs
      obtain ⟨r, rfl⟩ := List.head?_eq_some_iff.mp hs
      cases op with
      | input | hereDoc => exact hd r (eq_sign_of_operator? hc) (eq_sign_of_operator? hc ▸ rfl)
      | output | append => exact hg r (eq_sign_of_operator? hc) (eq_sign_of_operator? hc ▸ rfl)
    rw [run_cons, next_operator rfl hc rfl, finish_run_operated _ hc h, ih]
    simp [finish]
  | case18 w c r hn hr hd hg hb hq ha hc ih =>
    rw [run_plain _ _ hb hc]
    simpa [Partial.spell, Stance.next, hq, ha, hne hn hr] using ih tokens

end Reader

/-! ### A line -/

/-- What a reader makes of a text. -/
def read (cs : List Char) : Reader := Reader.run {} cs

theorem read_concat (a : List Char) (c : Char) : read (a ++ [c]) = (read a).next c := by
  rw [read, Reader.run_append, ← read]
  rfl

/-- The reader gives the tokens of a line. -/
theorem finish_read (cs : List Char) : (read cs).finish = ofChars cs :=
  Reader.finish_run [] .plain none cs

/-- Where nothing is begun, the tokens to come are those of the rest. -/
theorem finish_run_tokens (tokens : List Token) (cs : List Char) :
    (Reader.run { tokens } cs).finish = tokens ++ ofChars cs :=
  Reader.finish_run tokens .plain none cs

theorem ofChars_append (a b : List Char) : ofChars (a ++ b) = ((read a).run b).finish := by
  rw [← finish_read, read, Reader.run_append, ← read]

/-- Where an operator is held back, the reader took it last. -/
theorem read_of_angle {cs : List Char} {op : Redirect} (h : (read cs).angle = some op) :
    ∃ a, cs = a ++ [op.sign] ∧ operator? op.sign = some (redirect op) ∧
      read cs = Reader.operated (read a).finish (.redirect op) := by
  rcases List.eq_nil_or_concat cs with rfl | ⟨a, c, rfl⟩
  · cases h
  · rw [List.concat_eq_append] at h ⊢
    rw [read_concat] at h ⊢
    rcases (read a).next_cases c with ⟨_, _, _, _, hr⟩ | ⟨_, _, hr⟩ | ⟨_, t, hc, hr⟩ | ⟨_, hr⟩ <;>
      rw [hr] at h ⊢
    · cases h
    · cases h
    · cases t <;> cases h
      obtain rfl := Reader.eq_sign_of_operator? hc
      exact ⟨a, rfl, hc, rfl⟩
    · cases h

/-- A reader stands where the text does. -/
theorem stance_read (cs : List Char) : (read cs).stance = stance cs := by
  induction cs using List.reverseRecOn with
  | nil => rfl
  | append_singleton cs c ih =>
    rw [read_concat, stance_concat, ← ih]
    rcases (read cs).next_cases c with ⟨op, op', ha, hd, h⟩ | ⟨hs, hb, h⟩ | ⟨hs, t, hc, h⟩ | ⟨-, h⟩
    · obtain ⟨a, -, -, hr⟩ := read_of_angle ha
      rw [h, hr, Redirect.eq_sign_of_doubledBy hd]
      exact (Stance.next_sign op).symm
    · rw [h, hs, Stance.next_blank hb]
    · rw [h, hs, Stance.next_operator hc]
      cases t <;> rfl
    · rw [h]
      rfl

end Token

end AssistedShell
