import AssistedShell.Proofs.Token.Separation

/-! How the tokens of a line end. A text that says nothing is made of blanks and
escaped newlines. The tokens end with a pipe where a pipe outside quotes is
followed by such a text, and a pipe in quotes or after a backslash makes a word
that is still there at the end. -/

namespace AssistedShell.Token

/-! ### Texts that say nothing -/

/-- Blanks and escaped newlines. -/
inductive Silent : List Char → Prop where
  | nil : Silent []
  | blank {c cs} : Text.isBlank c = true → Silent cs → Silent (c :: cs)
  | continued {cs} : Silent cs → Silent ('\\' :: '\n' :: cs)

theorem silent_of_isAllBlank {cs : List Char} (h : Text.isAllBlank cs = true) : Silent cs := by
  induction cs with
  | nil => exact .nil
  | cons c cs ih =>
    rw [Text.isAllBlank, List.all_cons, Bool.and_eq_true] at h
    exact .blank h.1 (ih h.2)

theorem Silent.notMem {cs : List Char} (h : Silent cs) : '|' ∉ cs := by
  induction h with
  | nil => exact List.not_mem_nil
  | blank hc _ ih =>
    refine List.not_mem_cons_of_ne_of_not_mem ?_ ih
    rintro rfl
    cases hc
  | continued _ ih => simpa using ih

theorem ofChars_blank {c : Char} (hc : Text.isBlank c = true) (cs : List Char) :
    ofChars (c :: cs) = ofChars cs :=
  ofChars_separator (a := []) (s := .blank c hc) rfl nofun nofun

theorem ofChars_blanks_append {a : List Char} (ha : ∀ c ∈ a, Text.isBlank c = true)
    (b : List Char) : ofChars (a ++ b) = ofChars b := by
  induction a with
  | nil => rfl
  | cons c a ih =>
    obtain ⟨hc, ha'⟩ := List.forall_mem_cons.mp ha
    rw [List.cons_append, ofChars_blank hc, ih ha']

theorem Silent.ofChars_eq {cs : List Char} (h : Silent cs) : ofChars cs = [] := by
  induction h with
  | nil => rfl
  | blank hc _ ih => rw [ofChars_blank hc, ih]
  | continued _ ih => exact ih

/-- Whether a text has neither backslashes nor quotes. -/
def Bare (cs : List Char) : Prop := ∀ c ∈ cs, c ≠ '\\' ∧ c ≠ '"' ∧ c ≠ '\''

theorem closed_of_bare {cs : List Char} (h : Bare cs) : Closed cs := by
  rw [Closed, stance]
  induction cs with
  | nil => rfl
  | cons c cs ih =>
    obtain ⟨⟨hb, hd, hs⟩, h'⟩ := List.forall_mem_cons.mp h
    have hc : Stance.next {} c = {} := by simp [Stance.next, hb, hd, hs]
    rw [List.foldl_cons, hc, ih h']

theorem Silent.isAllBlank {cs : List Char} (h : Silent cs) (hb : Bare cs) :
    Text.isAllBlank cs = true := by
  induction h with
  | nil => rfl
  | blank hc _ ih =>
    rw [Text.isAllBlank, List.all_cons, hc, ← Text.isAllBlank,
      ih (List.forall_mem_cons.mp hb).2]
    rfl
  | continued => exact absurd rfl (List.forall_mem_cons.mp hb).1.1

/-- A word that was begun is among the tokens. -/
theorem scan_ne_nil {q : Quoting} {w : Partial} (hw : w.isSome) (cs : List Char) :
    scan q w cs ≠ [] := by
  have hf {w : Partial} (hw : w.isSome) : w.finish ≠ [] := by
    cases w with
    | none => cases hw
    | some w => exact List.cons_ne_nil _ _
  fun_induction scan q w cs with
  | case1 | case4 | case9 => exact hf hw
  | case2 w r ih | case5 w r ih | case7 w r _ _ ih | case10 w r ih => exact ih hw
  | case3 w c r _ ih | case6 w c r _ ih | case8 w c r _ _ _ ih | case11 w c r _ ih => exact ih rfl
  | case12 | case13 | case14 | case17 => exact List.append_ne_nil_of_left_ne_nil (hf hw) _
  | case15 w r _ _ _ _ _ ih | case16 w r _ _ _ _ _ _ ih => exact ih rfl
  | case18 w c r _ _ _ _ _ _ _ _ ih => exact ih rfl

/-- A text without tokens says nothing, unless a backslash has no character there. -/
theorem silent_of_ofChars_eq_nil {cs : List Char} (h : ofChars cs = [])
    (hl : cs.getLast? ≠ some '\\') : Silent cs := by
  have hrest {c d : Char} {r : List Char} (hn : (c :: r).getLast? ≠ some d) :
      r.getLast? ≠ some d := fun hr => hn (by rw [List.getLast?_cons, hr]; rfl)
  rw [ofChars] at h
  generalize hq : Quoting.plain = q at h
  generalize hw : (none : Partial) = w at h
  fun_induction scan q w cs with
  | case1 => exact .nil
  | case9 => exact absurd rfl hl
  | case10 w r ih => exact .continued (ih (hrest (hrest hl)) hq hw h)
  | case14 w c r _ _ _ _ hb ih =>
    exact .blank hb (ih (hrest hl) rfl rfl (List.append_eq_nil_iff.mp h).2)
  | case12 | case13 | case17 =>
    exact absurd h (List.append_ne_nil_of_right_ne_nil _ (List.cons_ne_nil _ _))
  | case11 | case15 | case16 | case18 => exact absurd h (scan_ne_nil rfl _)
  | _ => cases hq

/-! ### The last stage -/

/-- Where a list has an item, it has it for a last time. -/
theorem exists_last_of_mem {α : Type} {x : α} {xs : List α} (h : x ∈ xs) :
    ∃ a b, xs = a ++ x :: b ∧ x ∉ b := by
  obtain ⟨b, a, hr, hn⟩ := List.eq_append_cons_of_mem (List.mem_reverse.mpr h)
  refine ⟨a.reverse, b.reverse, ?_, by simpa using hn⟩
  rw [← List.reverse_reverse xs, hr]
  simp

/-- The tokens after the last pipe. -/
def lastStage (ts : List Token) : List Token := (ts.splitOn .pipe).getLastD []

theorem lastStage_of_notMem {ts : List Token} (h : .pipe ∉ ts) : lastStage ts = ts := by
  rw [lastStage, List.splitOn_eq_singleton h]
  rfl

theorem lastStage_append_pipe (ts : List Token) {us : List Token} (h : .pipe ∉ us) :
    lastStage (ts ++ .pipe :: us) = us := by
  rw [lastStage, List.splitOn_append_cons_self, List.splitOn_eq_singleton h, List.getLastD_concat]

/-- What no pipe comes after is in the last stage. -/
theorem mem_lastStage (ts : List Token) {t : Token} {us : List Token} (h : .pipe ∉ us)
    (ht : t ∈ us) : t ∈ lastStage (ts ++ us) := by
  by_cases hm : .pipe ∈ ts
  · obtain ⟨a, b, rfl, hb⟩ := exists_last_of_mem hm
    have hu : .pipe ∉ b ++ us := by simp [hb, h]
    rw [List.append_assoc, List.cons_append, lastStage_append_pipe a hu]
    exact List.mem_append_right b ht
  · have hu : .pipe ∉ ts ++ us := by simp [hm, h]
    rw [lastStage_of_notMem hu]
    exact List.mem_append_right ts ht

/-- Whether the word that comes next is the first of its stage. -/
def AtStart (ts : List Token) : Prop := ts = [] ∨ ts.getLast? = some .pipe

instance (ts : List Token) : Decidable (AtStart ts) :=
  inferInstanceAs (Decidable (ts = [] ∨ ts.getLast? = some .pipe))

theorem atStart_iff {ts : List Token} : AtStart ts ↔ lastStage ts = [] := by
  by_cases hm : .pipe ∈ ts
  · obtain ⟨a, b, rfl, hb⟩ := exists_last_of_mem hm
    rw [lastStage_append_pipe a hb, AtStart, List.getLast?_append_cons]
    cases b with
    | nil => exact iff_of_true (.inr rfl) rfl
    | cons t b =>
      refine iff_of_false ?_ (List.cons_ne_nil t b)
      rintro (hn | hl)
      · simp at hn
      · rw [List.getLast?_cons_cons] at hl
        exact hb (List.mem_of_getLast? hl)
  · rw [lastStage_of_notMem hm]
    exact or_iff_left fun hl => hm (List.mem_of_getLast? hl)

/-! ### Pipes that are none -/

theorem ofChars_pipe {a : List Char} (ha : Closed a) (b : List Char) :
    ofChars (a ++ '|' :: b) = ofChars a ++ .pipe :: ofChars b :=
  ofChars_separator (s := .pipe) ha nofun nofun

theorem pipe_notMem_finish (w : Partial) : .pipe ∉ w.finish := by
  cases w with
  | none => exact List.not_mem_nil
  | some w => simp [Partial.finish]

theorem eq_of_operator?_pipe {c : Char} (hc : operator? c = some .pipe) : c = '|' := by
  rw [operator?.eq_def] at hc
  split at hc
  · rfl
  all_goals cases hc

/-- No pipe is read where none is written. -/
theorem pipe_notMem_scan {q : Quoting} {w : Partial} {cs : List Char} (h : '|' ∉ cs) :
    .pipe ∉ scan q w cs := by
  fun_induction scan q w cs with
  | case17 w c r _ _ _ _ _ _ _ t ht ih =>
    obtain ⟨hc, hr⟩ := List.ne_and_not_mem_of_not_mem_cons h
    have hp : .pipe ≠ t := by
      rintro rfl
      exact hc (eq_of_operator?_pipe ht).symm
    simp [pipe_notMem_finish, hp, ih hr]
  | _ => simp_all [pipe_notMem_finish]

theorem pipe_notMem_ofChars {cs : List Char} (h : '|' ∉ cs) : .pipe ∉ ofChars cs :=
  pipe_notMem_scan h

/-- The word being read becomes a token with all that was read of it. -/
theorem exists_scan_eq_cons (q : Quoting) {w : Partial} (cs : List Char) {c : Char}
    (hw : ∃ u ∈ w, c ∈ u) : ∃ text ts, scan q w cs = .word text :: ts ∧ c ∈ text.toList := by
  have hpush {w : Partial} (d : Char) (hw : ∃ u ∈ w, c ∈ u) : ∃ u ∈ w.push d, c ∈ u := by
    obtain ⟨u, rfl, hc⟩ := hw
    exact ⟨d :: u, rfl, List.mem_cons_of_mem d hc⟩
  have hopened {w : Partial} (hw : ∃ u ∈ w, c ∈ u) : ∃ u ∈ w.opened, c ∈ u := by
    obtain ⟨u, rfl, hc⟩ := hw
    exact ⟨u, rfl, hc⟩
  have hfinish {w : Partial} (ts : List Token) (hw : ∃ u ∈ w, c ∈ u) :
      ∃ text us, w.finish ++ ts = .word text :: us ∧ c ∈ text.toList := by
    obtain ⟨u, rfl, hc⟩ := hw
    exact ⟨_, ts, rfl, by simpa using hc⟩
  fun_induction scan q w cs with
  | case1 q w | case4 w | case9 w =>
    rw [← List.append_nil w.finish]
    exact hfinish [] hw
  | case2 w r ih | case5 w r ih | case7 w r _ _ ih | case10 w r ih => exact ih hw
  | case3 w c r _ ih | case6 w c r _ ih | case8 w c r _ _ _ ih | case11 w c r _ ih
  | case18 w c r _ _ _ _ _ _ _ _ ih => exact ih (hpush c hw)
  | case12 | case13 | case14 | case17 => exact hfinish _ hw
  | case15 w r _ _ _ _ _ ih | case16 w r _ _ _ _ _ _ ih => exact ih (hopened hw)

/-- A pipe in quotes or after a backslash makes a word, and after it there is no pipe. -/
theorem exists_word_of_not_closed {a b : List Char} (ha : ¬ Closed a) (hb : '|' ∉ b) :
    ∃ ts text us, ofChars (a ++ '|' :: b) = ts ++ .word text :: us ∧ '|' ∈ text.toList ∧
      .pipe ∉ us := by
  have hc : operator? '|' = some .pipe := rfl
  have hs : (read a).stance ≠ {} := by
    rw [stance_read]
    exact ha
  have hesc : ((read a).stance.next '|').escaped = false := by
    obtain ⟨q, e⟩ := (read a).stance
    cases q <;> cases e <;> rfl
  have hr : (read a).next '|' = ⟨(read a).settle.tokens, none, (read a).word.push '|',
      (read a).stance.next '|'⟩ := by
    have hn : (read a).angle.bind (·.doubledBy '|') = none :=
      (read a).bind_doubledBy_eq_none nofun
    rw [Reader.next_spelled hn fun h => absurd h hs, Reader.spell, Reader.settle]
    dsimp only
    rw [Partial.spell_operator _ hc hs]
  obtain ⟨text, us, he, ht⟩ := exists_scan_eq_cons ((read a).stance.next '|').quoting
    (w := (read a).word.push '|') b (c := '|') ⟨_, rfl, List.mem_cons_self⟩
  refine ⟨(read a).settle.tokens, text, us, ?_, ht, ?_⟩
  · have hq : (read a).stance.next '|' = ⟨((read a).stance.next '|').quoting, false⟩ := by
      rw [← hesc]
    rw [ofChars_append, Reader.run_cons, hr, hq, Reader.finish_run, he]
  · have hp := pipe_notMem_scan (q := ((read a).stance.next '|').quoting)
      (w := (read a).word.push '|') hb
    rw [he] at hp
    exact List.not_mem_of_not_mem_cons hp

end AssistedShell.Token
