import AssistedShell.Proofs.Token.Reader

/-! What cuts a line into words. A blank or an operator outside quotes divides a
line into two that are read on their own; a text in which none stands is one
word, an empty one if all there is are quotes, or nothing at all. A line falls
into such texts, with the separators between them, and its tokens are theirs in
turn. -/

namespace AssistedShell.Token

/-! ### Separators -/

/-- What cuts words outside quotes. -/
inductive Separator where
  | blank (c : Char) (isBlank : Text.isBlank c)
  | pipe
  | background
  | redirect (op : Redirect)

namespace Separator

def text : Separator → List Char
  | .blank c _ => [c]
  | .pipe => ['|']
  | .background => ['&']
  | .redirect op => op.text.toList

def tokens : Separator → List Token
  | .blank .. => []
  | .pipe => [.pipe]
  | .background => [.background]
  | .redirect op => [.redirect op]

/-- The texts on either side do not go on with the angle bracket that a separator is. -/
def Apart (s : Separator) (a b : List Char) : Prop :=
  ∀ op, s = .redirect op → a.getLast? ≠ some op.sign ∧ b.head? ≠ some op.sign

/-- What follows a separator does not make it a longer one. -/
def Whole (s : Separator) (b : List Char) : Prop :=
  ∀ op, s = .redirect op → ∀ c ∈ b.head?, op.doubledBy c = none

/-- What comes before a separator does not hold back half of it. -/
def Fresh (s : Separator) (a : List Char) : Prop :=
  ∀ op, s = .redirect op → (read a).angle.bind (·.doubledBy op.sign) = none

end Separator

theorem Separator.Apart.fresh {s : Separator} {a b : List Char} (h : s.Apart a b) : s.Fresh a := by
  intro op hs
  rw [Option.bind_eq_none_iff]
  intro held ha
  apply Redirect.doubledBy_eq_none
  obtain ⟨a, rfl, -⟩ := read_of_angle ha
  intro hd
  exact (h op hs).1 (by rw [List.getLast?_concat, hd])

theorem Separator.Apart.whole {s : Separator} {a b : List Char} (h : s.Apart a b) : s.Whole b := by
  intro op hs c hc
  apply Redirect.doubledBy_eq_none
  rintro rfl
  exact (h op hs).2 hc

/-- An operator of one character cuts a line. -/
theorem ofChars_operator {a b : List Char} {c : Char} {t : Token} (ha : Closed a)
    (hc : operator? c = some t) (hn : (read a).angle.bind (·.doubledBy c) = none)
    (hb : ∀ op, t = .redirect op → b.head? ≠ some c) :
    ofChars (a ++ c :: b) = ofChars a ++ t :: ofChars b := by
  have hs : (read a).stance = {} := (stance_read a).trans ha
  rw [ofChars_append, Reader.run_cons, Reader.next_operator hs hc hn,
    Reader.finish_run_operated _ hc hb, finish_run_tokens, finish_read, List.append_assoc]
  rfl

/-- So does one of two characters. -/
theorem ofChars_doubled {a b : List Char} {c : Char} {op op' : Redirect} (ha : Closed a)
    (hc : operator? c = some (.redirect op)) (hn : (read a).angle.bind (·.doubledBy c) = none)
    (hd : op.doubledBy c = some op') :
    ofChars (a ++ c :: c :: b) = ofChars a ++ .redirect op' :: ofChars b := by
  have hs : (read a).stance = {} := (stance_read a).trans ha
  rw [ofChars_append, Reader.run_cons, Reader.run_cons, Reader.next_operator hs hc hn,
    Reader.next_doubled rfl hd, finish_run_tokens, finish_read]
  simp [Reader.operated]

/-- A separator cuts a line into two that are read on their own. -/
theorem ofChars_separator {a b : List Char} {s : Separator} (ha : Closed a) (hf : s.Fresh a)
    (hw : s.Whole b) : ofChars (a ++ (s.text ++ b)) = ofChars a ++ (s.tokens ++ ofChars b) := by
  have hs : (read a).stance = {} := (stance_read a).trans ha
  have hx (op : Redirect) (he : s = .redirect op) (hd : op.doubledBy op.sign ≠ none) :
      b.head? ≠ some op.sign := fun h => hd (hw op he _ (Option.mem_def.mpr h))
  cases s with
  | blank c hb =>
    change ofChars (a ++ c :: b) = _
    rw [ofChars_append, Reader.run_cons, Reader.next_blank hs hb, finish_run_tokens, finish_read]
    rfl
  | pipe => exact ofChars_operator ha rfl ((read a).bind_doubledBy_eq_none nofun) nofun
  | background => exact ofChars_operator ha rfl ((read a).bind_doubledBy_eq_none nofun) nofun
  | redirect op =>
    cases op with
    | input =>
      refine ofChars_operator ha rfl (hf _ rfl) fun _ _ => hx .input rfl (by decide)
    | output =>
      refine ofChars_operator ha rfl (hf _ rfl) fun _ _ => hx .output rfl (by decide)
    | hereDoc => exact ofChars_doubled ha (rfl : operator? '<' = some (.redirect .input)) (hf _ rfl) rfl
    | append => exact ofChars_doubled ha (rfl : operator? '>' = some (.redirect .output)) (hf _ rfl) rfl

/-! ### Texts without separators -/

/-- Somewhere in a text stands a character of a kind, a kind that also looks at where the text
before the character stands. -/
def Somewhere (P : Stance → Char → Prop) (cs : List Char) : Prop :=
  ∃ a c b, cs = a ++ c :: b ∧ P (stance a) c

/-- A character that cuts. -/
def Cutting (s : Stance) (c : Char) : Prop := s = {} ∧ (Text.isBlank c ∨ operator? c ≠ none)

/-- A character that makes a word of what it stands in, if only an empty one. -/
def Telling (s : Stance) (c : Char) : Prop := s = {} ∧ c ≠ '\\' ∨ s.escaped ∧ c ≠ '\n'

/-- No blank or operator outside quotes. -/
def Solid (cs : List Char) : Prop := ¬ Somewhere Cutting cs

section
variable {P : Stance → Char → Prop}

instance [∀ s c, Decidable (P s c)] (cs : List Char) : Decidable (Somewhere P cs) :=
  decidable_of_iff (∃ i : Fin cs.length, P (stance (cs.take i)) cs[i]) <| by
    constructor
    · rintro ⟨i, h⟩
      exact ⟨cs.take i, cs[i], cs.drop (i + 1), by simp, h⟩
    · rintro ⟨a, c, b, rfl, h⟩
      exact ⟨⟨a.length, by simp⟩, by simpa using h⟩

instance (s : Stance) (c : Char) : Decidable (Cutting s c) :=
  inferInstanceAs (Decidable (s = {} ∧ (Text.isBlank c ∨ operator? c ≠ none)))

instance (s : Stance) (c : Char) : Decidable (Telling s c) :=
  inferInstanceAs (Decidable (s = {} ∧ c ≠ '\\' ∨ s.escaped ∧ c ≠ '\n'))

instance (cs : List Char) : Decidable (Solid cs) :=
  inferInstanceAs (Decidable (¬ Somewhere Cutting cs))

@[simp] theorem not_somewhere_nil : ¬ Somewhere P [] := by
  rintro ⟨a, c, b, h, -⟩
  simp at h

theorem somewhere_concat {cs : List Char} {c : Char} :
    Somewhere P (cs ++ [c]) ↔ Somewhere P cs ∨ P (stance cs) c := by
  constructor
  · rintro ⟨a, d, b, h, hd⟩
    rcases List.eq_nil_or_concat b with rfl | ⟨b, e, rfl⟩
    · obtain ⟨rfl, hc⟩ := List.append_inj' h rfl
      obtain rfl := List.singleton_inj.mp hc
      exact .inr hd
    · rw [List.concat_eq_append, ← List.cons_append, ← List.append_assoc] at h
      exact .inl ⟨a, d, b, (List.append_inj' h rfl).1, hd⟩
  · rintro (⟨a, d, b, rfl, hd⟩ | h)
    · exact ⟨a, d, b ++ [c], by simp, hd⟩
    · exact ⟨cs, c, [], rfl, h⟩

/-- The first place. -/
theorem Somewhere.first {cs : List Char} (h : Somewhere P cs) :
    ∃ a c b, cs = a ++ c :: b ∧ P (stance a) c ∧ ¬ Somewhere P a := by
  induction cs using List.reverseRecOn with
  | nil => exact absurd h not_somewhere_nil
  | append_singleton cs d ih =>
    by_cases hs : Somewhere P cs
    · obtain ⟨a, c, b, rfl, hc, ha⟩ := ih hs
      exact ⟨a, c, b ++ [d], by simp, hc, ha⟩
    · exact ⟨cs, d, [], rfl, (somewhere_concat.mp h).resolve_left hs, hs⟩

end

theorem isSome_spell {w : Partial} {s : Stance} (hq : s.quoting ≠ .plain → w.isSome) (c : Char) :
    (w.spell s c).isSome ↔ w.isSome ∨ Telling s c := by
  obtain ⟨q, e⟩ := s
  rw [Partial.spell, Telling]
  cases e with
  | true => by_cases hc : c = '\n' <;> simp [hc, Partial.push]
  | false =>
    cases q with
    | plain =>
      by_cases hc : c = '\\'
      · simp [hc]
      · by_cases hd : c = '"' ∨ c = '\'' <;> simp [hc, hd, Partial.push, Partial.opened]
    | double => by_cases hc : c = '\\' ∨ c = '"' <;> simp [hc, hq (by decide), Partial.push]
    | single => by_cases hc : c = '\'' <;> simp [hc, hq (by decide), Partial.push]

/-- Quotes are opened by a character that makes a word. -/
theorem quoting_next {s : Stance} {c : Char} (h : (s.next c).quoting ≠ .plain) :
    s.quoting ≠ .plain ∨ Telling s c := by
  obtain ⟨q, e⟩ := s
  cases q with
  | plain =>
    refine .inr ?_
    cases e with
    | true => exact absurd rfl h
    | false =>
      by_cases hc : c = '\\'
      · subst hc
        exact absurd rfl h
      · exact .inl ⟨rfl, hc⟩
  | double | single => exact .inl nofun

/-- In a text without separators all belongs to one word, which is there as soon as a character
makes one. -/
theorem read_of_solid {cs : List Char} (h : Solid cs) :
    (read cs).tokens = [] ∧ (read cs).angle = none ∧
      ((read cs).word.isSome ↔ Somewhere Telling cs) ∧
      ((stance cs).quoting ≠ .plain → Somewhere Telling cs) := by
  -- From the end, where the reader is; quotes without a word would not make one when they close.
  induction cs using List.reverseRecOn with
  | nil => exact ⟨rfl, rfl, by simp [read, Reader.run], fun h => absurd rfl h⟩
  | append_singleton cs c ih =>
    rw [Solid, somewhere_concat, not_or] at h
    obtain ⟨ht, ha, hw, hq⟩ := ih h.1
    have hc : (read cs).stance = {} → ¬ Text.isBlank c ∧ operator? c = none := by
      rw [stance_read cs]
      intro hs
      simpa [Cutting, hs] using h.2
    have hn : read (cs ++ [c]) = (read cs).spell c := by
      rw [read_concat, Reader.next_spelled (by rw [ha]; rfl) hc, Reader.settle_of_angle ha]
    rw [hn, stance_concat, somewhere_concat]
    refine ⟨ht, ha, ?_, fun hx => (quoting_next hx).imp_left hq⟩
    rw [← hw, Reader.spell, stance_read cs]
    exact isSome_spell (fun hx => hw.mpr (hq hx)) c

/-- A text without separators is one word or nothing. -/
theorem ofChars_of_solid {cs : List Char} (h : Solid cs) :
    (Somewhere Telling cs → ∃ w, ofChars cs = [.word w]) ∧
      (¬ Somewhere Telling cs → ofChars cs = []) := by
  obtain ⟨ht, ha, hw, -⟩ := read_of_solid h
  have he : ofChars cs = (read cs).word.finish := by
    rw [← finish_read, Reader.finish, ht, ha]
    rfl
  rw [he, ← hw]
  rcases (read cs).word with _ | w
  · exact ⟨fun hx => absurd hx Bool.false_ne_true, fun _ => rfl⟩
  · exact ⟨fun _ => ⟨_, rfl⟩, fun hx => absurd rfl hx⟩

/-! ### A whole line -/

/-- A line as texts without separators and the separators between them, with the tokens of the
texts and of the separators in turn. -/
inductive Cut : List Char → List Token → Prop where
  | last {a} (solid : Solid a) : Cut a (ofChars a)
  | next {a} {s : Separator} {b ts} (solid : Solid a) (closed : Closed a) (whole : s.Whole b)
      (rest : Cut b ts) : Cut (a ++ (s.text ++ b)) (ofChars a ++ (s.tokens ++ ts))

theorem Separator.fresh_of_solid (s : Separator) {a : List Char} (h : Solid a) : s.Fresh a := by
  intro op _
  rw [(read_of_solid h).2.1]
  rfl

theorem Cut.ofChars_eq {line : List Char} {ts : List Token} (h : Cut line ts) :
    ofChars line = ts := by
  induction h with
  | last => rfl
  | @next a s b ts solid closed whole rest ih =>
    rw [ofChars_separator closed (s.fresh_of_solid solid) whole, ih]

/-- An angle bracket is an operator alone, or with the one after it. -/
theorem exists_redirect (op op' : Redirect) (hs : op.text.toList = [op.sign])
    (hd : op'.text.toList = [op.sign, op.sign]) (hw : ∀ c, op'.doubledBy c = none) (b : List Char) :
    ∃ s : Separator, ∃ b', op.sign :: b = s.text ++ b' ∧ s.Whole b' ∧ b'.length ≤ b.length := by
  by_cases hb : b.head? = some op.sign
  · obtain ⟨b', rfl⟩ := List.head?_eq_some_iff.mp hb
    refine ⟨.redirect op', b', by simp [Separator.text, hd], ?_, by simp⟩
    rintro _ ⟨⟩ c -
    exact hw c
  · refine ⟨.redirect op, b, by simp [Separator.text, hs], ?_, Nat.le_refl _⟩
    rintro _ ⟨⟩ c hc
    apply Redirect.doubledBy_eq_none
    rintro rfl
    exact hb hc

/-- A separator begins where a character cuts, as long a one as there is. -/
theorem exists_separator {c : Char} (hc : Text.isBlank c ∨ operator? c ≠ none) (b : List Char) :
    ∃ s : Separator, ∃ b', c :: b = s.text ++ b' ∧ s.Whole b' ∧ b'.length ≤ b.length := by
  by_cases hb : Text.isBlank c
  · exact ⟨.blank c hb, b, rfl, by simp [Separator.Whole], Nat.le_refl _⟩
  · have ho := hc.resolve_left hb
    rw [operator?.eq_def] at ho
    split at ho
    · exact ⟨.pipe, b, rfl, by simp [Separator.Whole], Nat.le_refl _⟩
    · exact ⟨.background, b, rfl, by simp [Separator.Whole], Nat.le_refl _⟩
    · exact exists_redirect .input .hereDoc rfl rfl (fun _ => rfl) b
    · exact exists_redirect .output .append rfl rfl (fun _ => rfl) b
    · exact absurd rfl ho

/-- Every line falls apart into texts without separators. -/
theorem cut_ofChars (line : List Char) : Cut line (ofChars line) := by
  induction hn : line.length using Nat.strongRecOn generalizing line with
  | _ n ih =>
    by_cases h : Solid line
    · exact .last h
    -- The part before the first character that cuts is solid.
    · obtain ⟨a, c, b, rfl, ⟨ha, hc⟩, hs⟩ := (not_not.mp h).first
      obtain ⟨s, b', hb, hw, hl⟩ := exists_separator hc b
      rw [hb, ofChars_separator ha (s.fresh_of_solid hs) hw]
      exact .next hs ha hw (ih _ (by simp [← hn]; omega) b' rfl)

/-- A blank or an operator outside quotes divides a line into two that are read on their own.
A text without one is a single word, if a quote or another character makes one, or nothing; and
the tokens of a line are those of the texts without separators that it falls apart into, with the
separators between them. -/
theorem ofChars_by_separators :
    (∀ (a b : List Char) (s : Separator), Closed a → s.Apart a b →
      ofChars (a ++ (s.text ++ b)) = ofChars a ++ (s.tokens ++ ofChars b)) ∧
    (∀ a, Solid a → (Somewhere Telling a → ∃ w, ofChars a = [.word w]) ∧
      (¬ Somewhere Telling a → ofChars a = [])) ∧
    ∀ line ts, Cut line ts ↔ ofChars line = ts := by
  refine ⟨fun a b s ha hs => ofChars_separator ha hs.fresh hs.whole,
    fun a ha => ofChars_of_solid ha, fun line ts => ⟨Cut.ofChars_eq, ?_⟩⟩
  rintro rfl
  exact cut_ofChars line

/-- An appended file cut off an empty word, whose quotes make it. -/
theorem ofChars_quotes_append :
    (Closed ['"', '"'] ∧ (Separator.redirect .append).Apart ['"', '"'] [' ', 'f'] ∧
      ofChars ['"', '"', '>', '>', ' ', 'f'] =
        ofChars ['"', '"'] ++ .redirect .append :: ofChars [' ', 'f']) ∧
    (Solid ['"', '"'] ∧ Somewhere Telling ['"', '"'] ∧
      ∃ w, ofChars ['"', '"'] = [.word w]) ∧
    Solid ['\\', '\n'] ∧ ¬ Somewhere Telling ['\\', '\n'] ∧ ofChars ['\\', '\n'] = [] := by
  obtain ⟨hsep, hsolid, -⟩ := ofChars_by_separators
  have hc : Closed ['"', '"'] := by decide
  have ha : (Separator.redirect .append).Apart ['"', '"'] [' ', 'f'] := by
    rintro _ ⟨⟩
    decide
  have hq : Solid ['"', '"'] ∧ Somewhere Telling ['"', '"'] := by decide
  have hn : Solid ['\\', '\n'] ∧ ¬ Somewhere Telling ['\\', '\n'] := by decide
  exact ⟨⟨hc, ha, hsep _ [' ', 'f'] _ hc ha⟩, ⟨hq.1, hq.2, (hsolid _ hq.1).1 hq.2⟩,
    hn.1, hn.2, (hsolid _ hn.1).2 hn.2⟩

end AssistedShell.Token
