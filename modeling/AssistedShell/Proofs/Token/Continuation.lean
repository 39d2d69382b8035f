import AssistedShell.Proofs.Token.Reader

/-! Lines continued with an escaped newline. Outside single quotes the newline
disappears with its backslash, but the two complete an angle bracket before them:
an operator of two characters cannot be continued between them. -/

namespace AssistedShell.Token

/-! ### Single operators -/

/-- A text ends with an operator that one more of its character would double. -/
def Held (a : List Char) (op : Redirect) : Prop :=
  operator? op.sign = some (.redirect op) ∧ a.getLast? = some op.sign ∧
    (ofChars a).getLast? = some (.redirect op)

theorem doubledBy_sign {op : Redirect} (h : operator? op.sign = some (.redirect op)) :
    ∃ op', op.doubledBy op.sign = some op' := by
  cases op with
  | input => exact ⟨.hereDoc, rfl⟩
  | output => exact ⟨.append, rfl⟩
  | hereDoc | append => cases h

theorem operator?_ne_of_doubledBy {op op' : Redirect} {c : Char} (h : op.doubledBy c = some op') :
    operator? op'.sign ≠ some (.redirect op') := by
  rw [Redirect.doubledBy.eq_def] at h
  split at h <;> cases h <;> decide

/-- An operator in quotes or escaped belongs to a word. -/
theorem isSome_spell_operator (w : Partial) {s : Stance} {c : Char} {t : Token}
    (hc : operator? c = some t) (hs : s ≠ {}) : (w.spell s c).isSome := by
  rw [w.spell_operator hc hs]
  rfl

/-- The reader holds back the operators that one more character would double. -/
theorem angle_read_iff {a : List Char} {op : Redirect} :
    (read a).angle = some op ↔ Held a op := by
  constructor
  · intro h
    obtain ⟨a, rfl, ho, hr⟩ := read_of_angle h
    refine ⟨ho, List.getLast?_concat .., ?_⟩
    rw [← finish_read, hr, Reader.finish_operated, List.getLast?_concat]
  · rintro ⟨ho, hl, ht⟩
    obtain ⟨a, rfl⟩ := List.getLast?_eq_some_iff.mp hl
    rw [← finish_read, read_concat] at ht
    rw [read_concat]
    rcases (read a).next_cases op.sign with
      ⟨_, op', _, hd, hr⟩ | ⟨_, hb, _⟩ | ⟨_, t, hc, hr⟩ | ⟨hc, hr⟩
    · rw [hr] at ht
      have he : op' = op := by simpa [Reader.finish, Partial.finish] using ht
      exact absurd ho (he ▸ operator?_ne_of_doubledBy hd)
    · exact absurd hb (ne_of_operator? ho).1
    · rw [hr, Option.some.inj (hc.symm.trans ho)]
      rfl
    -- A bracket that was spelled ends in a word, so the last token is none of the operators.
    · have hs : (read a).stance ≠ {} := by
        intro hs
        rw [(hc hs).2] at ho
        cases ho
      obtain ⟨w, hw⟩ := Option.isSome_iff_exists.mp
        (isSome_spell_operator (read a).settle.word ho hs)
      rw [hr, Reader.spell, Reader.finish, show (read a).settle.stance = (read a).stance from rfl,
        hw] at ht
      simp [Partial.finish] at ht

/-! ### The continuation -/

/-- An escaped newline completes an operator held back and is nothing else. -/
theorem Reader.run_continued {r : Reader} (hq : r.stance.quoting ≠ .single)
    (he : r.stance.escaped = false) (cs : List Char) :
    r.run ('\\' :: '\n' :: cs) = r.settle.run cs := by
  obtain ⟨tokens, angle, w, q, e⟩ := r
  cases he
  have hn : (Reader.mk tokens angle w ⟨q, false⟩).angle.bind (·.doubledBy '\\') = none :=
    Reader.bind_doubledBy_eq_none _ fun op => by cases op <;> decide
  rw [run_cons, next_spelled hn fun _ => ⟨by decide, rfl⟩]
  cases q with
  | plain => exact run_quoted _ _ (s := ⟨.plain, true⟩) nofun _ _
  | double => exact run_quoted _ _ (s := ⟨.double, true⟩) nofun _ _
  | single => exact absurd rfl hq

section
variable {a b : List Char} {op : Redirect}

theorem ofChars_continued (hq : (stance a).quoting ≠ .single) (he : (stance a).escaped = false) :
    ofChars (a ++ '\\' :: '\n' :: b) = ((read a).settle.run b).finish := by
  rw [← stance_read a] at hq he
  rw [ofChars_append, Reader.run_continued hq he]

/-- A line continued after an angle bracket is two lines. -/
theorem ofChars_continued_of_held (h : Held a op) :
    ofChars (a ++ '\\' :: '\n' :: b) = ofChars a ++ ofChars b := by
  obtain ⟨a', rfl, -, hr⟩ := read_of_angle (angle_read_iff.mpr h)
  have hs : stance (a' ++ [op.sign]) = {} := by
    rw [← stance_read, hr]
    rfl
  rw [ofChars_continued (by rw [hs]; decide) (by rw [hs]), ← finish_read (a' ++ [op.sign]), hr,
    Reader.settle_operated, Reader.finish_operated, finish_run_tokens]

/-- In one line the bracket and the next are one operator. -/
theorem ofChars_continued_ne (h : Held a op) (hb : b.head? = some op.sign) :
    ofChars (a ++ '\\' :: '\n' :: b) ≠ ofChars (a ++ b) := by
  obtain ⟨b, rfl⟩ := List.head?_eq_some_iff.mp hb
  obtain ⟨op', hd⟩ := doubledBy_sign h.1
  have ha := angle_read_iff.mpr h
  obtain ⟨a', -, -, hr⟩ := read_of_angle ha
  rw [ofChars_continued_of_held h, ofChars_append, Reader.run_cons, Reader.next_doubled ha hd,
    finish_run_tokens, ← finish_read a, hr, Reader.finish_operated]
  intro he
  obtain ⟨ht, -⟩ := List.append_inj he (by simp [Reader.operated])
  have ho : op = op' := by simpa [Reader.operated] using ht
  exact operator?_ne_of_doubledBy hd (ho ▸ h.1)

/-- Outside single quotes an escaped newline disappears, unless it stands between the two
characters of an operator: there it leaves two operators. -/
theorem ofChars_continued_iff (hq : (stance a).quoting ≠ .single)
    (he : (stance a).escaped = false) :
    ofChars (a ++ '\\' :: '\n' :: b) = ofChars (a ++ b) ↔
      ¬ ∃ op, Held a op ∧ b.head? = some op.sign := by
  constructor
  · rintro h ⟨op, ha, hb⟩
    exact ofChars_continued_ne ha hb h
  · intro h
    rw [ofChars_continued hq he, ofChars_append, Reader.finish_run_settle]
    intro c hc
    rw [Option.bind_eq_none_iff]
    intro op ha
    apply Redirect.doubledBy_eq_none
    rintro rfl
    exact h ⟨op, angle_read_iff.mp ha, hc⟩

end

/-- A word in double quotes goes on in the next line. -/
theorem ofChars_continued_word :
    (stance ['"', 'a']).quoting ≠ .single ∧ (stance ['"', 'a']).escaped = false ∧
      (¬ ∃ op, Held ['"', 'a'] op ∧ ['b', '"'].head? = some op.sign) ∧
      ofChars (['"', 'a'] ++ '\\' :: '\n' :: ['b', '"']) = ofChars (['"', 'a'] ++ ['b', '"']) := by
  have hq : (stance ['"', 'a']).quoting ≠ .single := by decide
  have he : (stance ['"', 'a']).escaped = false := by decide
  have hn : ¬ ∃ op, Held ['"', 'a'] op ∧ ['b', '"'].head? = some op.sign := by
    rintro ⟨op, -, hb⟩
    cases op <;> cases hb
  exact ⟨hq, he, hn, (ofChars_continued_iff hq he).mpr hn⟩

/-- A here-document's operator does not. -/
theorem ofChars_continued_hereDoc :
    (stance ['c', ' ', '<']).quoting ≠ .single ∧ (stance ['c', ' ', '<']).escaped = false ∧
      ofChars (['c', ' ', '<'] ++ '\\' :: '\n' :: ['<', 'E']) =
        [.word "c", .redirect .input, .redirect .input, .word "E"] ∧
      ofChars (['c', ' ', '<'] ++ ['<', 'E']) =
        [.word "c", .redirect .hereDoc, .word "E"] := by
  decide

end AssistedShell.Token
