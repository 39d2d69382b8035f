import AssistedShell.Proofs.Pipeline.HereDocument
import AssistedShell.Proofs.Token.Ending
import AssistedShell.TabCompletion

/-! The kind of the word before the cursor, next to what the tokens before the word
say. The kind goes by the last pipe that is written. So it is that of the tokens
unless this pipe stands in quotes or after a backslash, or the word begins a stage
in a line that goes on after an escaped newline. -/

namespace AssistedShell

namespace Text

variable {p : Char → Bool}

theorem splitAll_cons (c : Char) (r : List Char) : ∃ l ls, splitAll p r = l :: ls ∧
    splitAll p (c :: r) = if p c then [] :: l :: ls else (c :: l) :: ls := by
  cases hs : splitAll p r with
  | nil => cases r <;> grind [splitAll]
  | cons l ls => exact ⟨l, ls, rfl, by rw [splitAll, hs]⟩

/-- After a run that is not empty there are only empty ones. -/
theorem eq_append_of_splitAll {cs l : List Char} {ls : List (List Char)}
    (h : splitAll p cs = l :: ls) (hn : ∀ x ∈ ls, x = []) :
    ∃ after, cs = l ++ after ∧ ∀ c ∈ after, p c = true := by
  induction cs generalizing l ls with
  | nil => 
    obtain ⟨rfl, -⟩ := List.cons.inj h
    exact ⟨[], rfl, nofun⟩
  | cons c r ih =>
    obtain ⟨l', ls', hr, hs⟩ := splitAll_cons (p := p) c r
    rw [hs] at h
    split at h
    next hc =>
      obtain ⟨rfl, rfl⟩ := List.cons.inj h
      obtain ⟨hl, hn'⟩ := List.forall_mem_cons.mp hn
      obtain ⟨after, rfl, ha⟩ := ih hr hn'
      subst hl
      exact ⟨c :: after, rfl, List.forall_mem_cons.mpr ⟨hc, ha⟩⟩
    next =>
      obtain ⟨rfl, rfl⟩ := List.cons.inj h
      obtain ⟨after, rfl, ha⟩ := ih hr hn
      exact ⟨after, rfl, ha⟩

/-- A text of one word is this word with blanks around it. -/
theorem eq_append_of_words {cs word : List Char} (h : words cs = [word]) :
    ∃ before after, cs = before ++ (word ++ after) ∧ (∀ c ∈ before, isBlank c = true) ∧
      ∀ c ∈ after, isBlank c = true := by
  induction cs with
  | nil => cases h
  | cons c r ih =>
    obtain ⟨l, ls, hr, hs⟩ := splitAll_cons (p := isBlank) c r
    rw [words, hs] at h
    split at h
    next hc =>
      rw [List.filter_cons_of_neg (by simp), ← hr] at h
      obtain ⟨before, after, rfl, hb, ha⟩ := ih h
      exact ⟨c :: before, after, rfl, List.forall_mem_cons.mpr ⟨hc, hb⟩, ha⟩
    next =>
      rw [List.filter_cons_of_pos (by simp)] at h
      obtain ⟨rfl, hf⟩ := List.cons.inj h
      obtain ⟨after, rfl, ha⟩ := eq_append_of_splitAll hr (by simpa using hf)
      exact ⟨[], after, rfl, nofun, ha⟩

end Text

namespace TabCompletion

open Token (AtStart Closed Silent lastStage ofChars)

/-! ### The cut before the word -/

theorem splitWord_append (before word cs : List Char) :
    (splitWord before word cs).1 ++ (splitWord before word cs).2 = before ++ word ++ cs := by
  fun_induction splitWord before word cs with
  | case1 => simp
  | case2 before word c r ih => simpa using ih
  | case3 before word c r _ _ ih => simpa using ih
  | case4 before word c r _ _ ih => simpa using ih

/-- What stands before the word ends with a character that ends words. -/
theorem getLast?_splitWord (word cs : List Char) {before : List Char}
    (hb : ∀ c ∈ before.getLast?, endsWord c = true) :
    ∀ c ∈ (splitWord before word cs).1.getLast?, endsWord c = true := by
  fun_induction splitWord before word cs with
  | case1 => exact hb
  | case2 before word c r ih => exact ih hb
  | case3 before word c r _ hc ih =>
    refine ih ?_
    intro d hd
    rw [List.getLast?_concat] at hd
    obtain rfl := Option.some.inj hd
    exact hc
  | case4 before word c r _ _ ih => exact ih hb

/-! ### The last pipe -/

theorem lastSegment_append (a : List Char) {b : List Char} (hb : '|' ∉ b) :
    lastSegment (a ++ b) = lastSegment a ++ b := by
  have hp : ∀ c ∈ b.reverse, decide (c ≠ '|') = true := by
    intro c hc
    refine decide_eq_true fun he => hb ?_
    rw [← he]
    exact List.mem_reverse.mp hc
  rw [lastSegment, List.reverse_append, List.takeWhile_append_of_pos hp, List.reverse_append,
    List.reverse_reverse, ← lastSegment]

theorem lastSegment_of_notMem {a : List Char} (ha : '|' ∉ a) : lastSegment a = a :=
  lastSegment_append [] ha

theorem lastSegment_pipe (a : List Char) {b : List Char} (hb : '|' ∉ b) :
    lastSegment (a ++ '|' :: b) = b := by
  have ha : lastSegment (a ++ ['|']) = [] := by simp [lastSegment]
  rw [List.append_cons, lastSegment_append _ hb, ha, List.nil_append]

/-- A text has no pipe, or it ends with the segment after its last one. -/
theorem segment_cases (cs : List Char) :
    '|' ∉ cs ∧ lastSegment cs = cs ∨
      ∃ a, cs = a ++ '|' :: lastSegment cs ∧ '|' ∉ lastSegment cs := by
  by_cases hm : '|' ∈ cs
  · obtain ⟨a, b, rfl, hb⟩ := Token.exists_last_of_mem hm
    rw [lastSegment_pipe a hb]
    exact .inr ⟨a, rfl, hb⟩
  · exact .inl ⟨hm, lastSegment_of_notMem hm⟩

/-- Where something is written after the last pipe, it ends as the text does. -/
theorem getLast?_lastSegment {cs : List Char} (h : lastSegment cs ≠ []) :
    (lastSegment cs).getLast? = cs.getLast? := by
  obtain ⟨-, hs⟩ | ⟨a, he, -⟩ := segment_cases cs
  · rw [hs]
  · have hl := congrArg List.getLast? he
    obtain ⟨c, seg, hc⟩ := List.exists_cons_of_ne_nil h
    rw [hl, List.getLast?_append_cons, hc, List.getLast?_cons_cons]

theorem lastSegment_eq_nil_iff {cs : List Char} :
    lastSegment cs = [] ↔ cs = [] ∨ cs.getLast? = some '|' := by
  obtain ⟨hn, hs⟩ | ⟨a, he, hn⟩ := segment_cases cs
  · rw [hs]
    exact (or_iff_left fun hl => hn (List.mem_of_getLast? hl)).symm
  · refine ⟨fun hnil => .inr ?_, ?_⟩
    · rw [he, hnil, List.getLast?_concat]
    · rintro (rfl | hl)
      · simp at he
      · by_contra hne
        rw [← getLast?_lastSegment hne] at hl
        exact hn (List.mem_of_getLast? hl)

/-- Whether the last pipe of a text stands in quotes or after a backslash. -/
def Masked (cs : List Char) : Prop := ∃ a b, cs = a ++ '|' :: b ∧ '|' ∉ b ∧ ¬ Closed a

theorem masked_iff {a b : List Char} (hb : '|' ∉ b) : Masked (a ++ '|' :: b) ↔ ¬ Closed a := by
  refine ⟨?_, fun ha => ⟨a, b, rfl, hb, ha⟩⟩
  rintro ⟨a', b', he, hb', ha'⟩
  have hs := lastSegment_pipe a hb
  rw [he, lastSegment_pipe a' hb'] at hs
  obtain rfl := hs
  rwa [List.append_cancel_right he]

/-! ### What the tokens say -/

/-- With an operator for its last pipe, the last stage of a line is its last segment. -/
theorem lastStage_of_not_masked {cs : List Char} (hm : ¬ Masked cs) :
    lastStage (ofChars cs) = ofChars (lastSegment cs) := by
  rcases segment_cases cs with ⟨hn, hs⟩ | ⟨a, he, hn⟩
  · rw [hs, Token.lastStage_of_notMem (Token.pipe_notMem_ofChars hn)]
  · rw [he, masked_iff hn, not_not] at hm
    rw [he, Token.ofChars_pipe hm, lastSegment_pipe a hn,
      Token.lastStage_append_pipe _ (Token.pipe_notMem_ofChars hn)]

/-- Otherwise there is a word in it with a pipe. -/
theorem exists_mem_lastStage_of_masked {cs : List Char} (hm : Masked cs) :
    ∃ text, .word text ∈ lastStage (ofChars cs) ∧ '|' ∈ text.toList := by
  obtain ⟨a, b, rfl, hb, ha⟩ := hm
  obtain ⟨ts, text, us, he, ht, hu⟩ := Token.exists_word_of_not_closed ha hb
  have hw : Token.pipe ∉ .word text :: us := List.not_mem_cons_of_ne_of_not_mem nofun hu
  rw [he]
  exact ⟨text, Token.mem_lastStage ts hw List.mem_cons_self, ht⟩

/-- The next word is the first of its stage if the last pipe is an operator and nothing is said
after it. -/
theorem atStart_iff_silent {cs : List Char} (hl : ∀ c ∈ cs.getLast?, endsWord c = true) :
    AtStart (ofChars cs) ↔ ¬ Masked cs ∧ Silent (lastSegment cs) := by
  rw [Token.atStart_iff]
  by_cases hm : Masked cs
  · obtain ⟨text, hw, -⟩ := exists_mem_lastStage_of_masked hm
    exact iff_of_false (List.ne_nil_of_mem hw) fun h => h.1 hm
  · rw [lastStage_of_not_masked hm, and_iff_right hm]
    refine ⟨fun h => Token.silent_of_ofChars_eq_nil h ?_, Silent.ofChars_eq⟩
    intro hb
    have hne : lastSegment cs ≠ [] := by
      rintro hnil
      rw [hnil] at hb
      cases hb
    rw [getLast?_lastSegment hne] at hb
    exact absurd (hl _ hb) (by decide)

/-! ### What the kind says -/

/-- A text and the blanks at its end. -/
theorem exists_trimEnd_append (cs : List Char) :
    ∃ blanks, (∀ c ∈ blanks, Text.isBlank c = true) ∧
      lastSegment cs = lastSegment (Text.trimEnd cs) ++ blanks := by
  obtain ⟨blanks, hs, hb⟩ := Pipeline.exists_dropEndWhile_append Text.isBlank cs
  have hn : '|' ∉ blanks := fun hm => absurd (hb _ hm) (by decide)
  refine ⟨blanks, hb, ?_⟩
  rw [Text.trimEnd, ← lastSegment_append _ hn, ← hs]

theorem kind_eq_command_iff {cs : List Char} :
    WordKind.after cs = .command ↔ Text.isAllBlank (lastSegment cs) = true := by
  have hk : WordKind.after cs = .command ↔ lastSegment (Text.trimEnd cs) = [] := by
    rw [lastSegment_eq_nil_iff, WordKind.after]
    simpa using or_iff_not_imp_left.symm
  obtain ⟨blanks, hb, hs⟩ := exists_trimEnd_append cs
  rw [hk, hs, Text.isAllBlank, List.all_append, List.all_eq_true.mpr hb, Bool.and_true,
    List.all_eq_true]
  refine ⟨fun hn => by simp [hn], fun ha => by_contra fun hn => ?_⟩
  -- otherwise the text without the blanks at its end would end with a blank
  have hc := List.getLast?_eq_some_getLast hn
  have hb := ha _ (List.mem_of_getLast? hc)
  rw [getLast?_lastSegment hn] at hc
  rw [Pipeline.getLast?_dropEndWhile hc] at hb
  cases hb

theorem ofChars_cd {blanks : List Char} (hb : ∀ c ∈ blanks, Text.isBlank c = true) :
    ofChars ("cd".toList ++ blanks) = [.word "cd"] := by
  have hcd : ofChars "cd".toList = [.word "cd"] := rfl
  cases blanks with
  | nil => exact hcd
  | cons c blanks =>
    obtain ⟨hc, hb'⟩ := List.forall_mem_cons.mp hb
    have hs := Token.ofChars_separator (a := "cd".toList) (b := blanks) (s := .blank c hc) rfl
      nofun nofun
    have hn : ofChars blanks = [] := by
      rw [← List.append_nil blanks, Token.ofChars_blanks_append hb']
      rfl
    rw [hn, hcd] at hs
    exact hs

/-- After `cd` and blanks the last segment says `cd` to the tokens as well. -/
theorem ofChars_of_afterCd {cs : List Char} (h : WordKind.after cs = .argument true) :
    ofChars (lastSegment cs) = [.word "cd"] := by
  have hw : Text.words (lastSegment (Text.trimEnd cs)) = ["cd".toList] := by
    rw [WordKind.after] at h
    split at h
    · cases h
    · exact eq_of_beq (WordKind.argument.inj h)
  obtain ⟨before, after, hs, hb, ha⟩ := Text.eq_append_of_words hw
  obtain ⟨blanks, hb', hs'⟩ := exists_trimEnd_append cs
  rw [hs', hs, List.append_assoc, List.append_assoc, Token.ofChars_blanks_append hb]
  exact ofChars_cd (List.forall_mem_append.mpr ⟨ha, hb'⟩)

/-! ### The two side by side -/

/-- Whether the kind of the next word is the one that the tokens before it give: a command if
it begins a stage, and after `cd` only if the stage is `cd` so far. -/
def Agrees (before : List Char) : Prop :=
  (WordKind.after before = .command ↔ AtStart (ofChars before)) ∧
    (WordKind.after before = .argument true → lastStage (ofChars before) = [.word "cd"])

instance (before : List Char) : Decidable (Agrees before) :=
  inferInstanceAs (Decidable ((WordKind.after before = .command ↔ AtStart (ofChars before)) ∧
    (WordKind.after before = .argument true → lastStage (ofChars before) = [.word "cd"])))

theorem agrees_iff {before : List Char} (hl : ∀ c ∈ before.getLast?, endsWord c = true) :
    Agrees before ↔ match WordKind.after before with
      | .command => ¬ Masked before
      | .argument true => ¬ Masked before
      | .argument false => Masked before ∨ ¬ Silent (lastSegment before) := by
  rw [Agrees, atStart_iff_silent hl]
  split
  next hk =>
    have hs := Token.silent_of_isAllBlank (kind_eq_command_iff.mp hk)
    simp [hk, hs]
  next hk =>
    have hcd := ofChars_of_afterCd hk
    have hs : ¬ Silent (lastSegment before) := by
      intro hs
      rw [hs.ofChars_eq] at hcd
      cases hcd
    rw [hk]
    refine ⟨fun ⟨_, hc⟩ hm => ?_, fun hm => ⟨by simp [hs], fun _ => ?_⟩⟩
    · obtain ⟨text, hw, hp⟩ := exists_mem_lastStage_of_masked hm
      rw [hc rfl, List.mem_singleton] at hw
      obtain rfl := Token.word.inj hw
      exact absurd hp (by decide)
    · rw [lastStage_of_not_masked hm, hcd]
  next hk =>
    rw [hk]
    simp [imp_iff_not_or]

theorem agrees_of_bare {before : List Char} (hb : Token.Bare before)
    (hl : ∀ c ∈ before.getLast?, endsWord c = true) : Agrees before := by
  have hm : ¬ Masked before := by
    rintro ⟨a, b, rfl, -, ha⟩
    exact ha (Token.closed_of_bare fun c hc => hb c (List.mem_append_left _ hc))
  rw [agrees_iff hl]
  split
  next => exact hm
  next => exact hm
  next hk =>
    refine .inr fun hs => ?_
    have hseg : Token.Bare (lastSegment before) := by
      intro c hc
      obtain ⟨-, he⟩ | ⟨a, he, -⟩ := segment_cases before
      · exact hb c (he ▸ hc)
      · refine hb c ?_
        rw [he]
        exact List.mem_append_right a (List.mem_cons_of_mem _ hc)
    rw [kind_eq_command_iff.mpr (hs.isAllBlank hseg)] at hk
    cases hk

/-- For every line up to the cursor, what stands before the word and the word make up the line,
and it is told exactly when the kind of the word agrees with the tokens before it. The kinds of a
command and of an argument of `cd` agree unless the last pipe stands in quotes or after a
backslash. That of another argument agrees if the last pipe does, or if more than blanks and escaped
newlines comes after it. In a line without backslashes and quotes the kind always agrees. -/
theorem kind_agrees_iff (line : List Char) :
    ∃ before word, splitWord [] [] line = (before, word) ∧ before ++ word = line ∧
      (Agrees before ↔ match WordKind.after before with
        | .command => ¬ Masked before
        | .argument true => ¬ Masked before
        | .argument false => Masked before ∨ ¬ Silent (lastSegment before)) ∧
      (Token.Bare line → Agrees before) := by
  have hs : (splitWord [] [] line).1 ++ (splitWord [] [] line).2 = line :=
    splitWord_append [] [] line
  have hl : ∀ c ∈ (splitWord [] [] line).1.getLast?, endsWord c = true :=
    getLast?_splitWord [] line nofun
  refine ⟨_, _, rfl, hs, agrees_iff hl, fun hb => agrees_of_bare (fun c hc => hb c ?_) hl⟩
  rw [← hs]
  exact List.mem_append_left _ hc

/-- After an escaped pipe a command is on offer, though the tokens have an argument there, and
after `cd` behind such a pipe only directories are. -/
theorem kind_after_escaped_pipe :
    splitWord [] [] "echo \\| c".toList = ("echo \\| ".toList, "c".toList) ∧
      WordKind.after "echo \\| ".toList = .command ∧
      ofChars "echo \\| ".toList = [.word "echo", .word "|"] ∧
      ¬ Agrees "echo \\| ".toList ∧
      WordKind.after "echo \\|cd ".toList = .argument true ∧
      ofChars "echo \\|cd ".toList = [.word "echo", .word "|cd"] ∧
      ¬ Agrees "echo \\|cd ".toList := by
  decide

end TabCompletion

end AssistedShell
