import AssistedShell.Assistant.Reply
import AssistedShell.Text.Search
import AssistedShell.Proofs.Pipeline.HereDocument

/-! The commands of a reply, told from the pieces between its newlines. Each piece
that is more than blanks gives one command, and a carriage return before a newline
is a blank at the end of its piece. So replies that are put together give their
commands in turn, and commands that are joined with newlines come back as they are. -/

namespace AssistedShell

namespace Text

/-! ### Trimming -/

/-- Whether a text is another one without the blanks at both ends. -/
structure Trimmed (text core : List Char) : Prop where
  split : ∃ before after, text = before ++ (core ++ after) ∧
    (∀ c ∈ before, isBlank c = true) ∧ ∀ c ∈ after, isBlank c = true
  first : ∀ c ∈ core.head?, isBlank c = false
  last : ∀ c ∈ core.getLast?, isBlank c = false

theorem isAllBlank_append (a b : List Char) :
    isAllBlank (a ++ b) = (isAllBlank a && isAllBlank b) := List.all_append

theorem trimStart_of_isAllBlank {cs : List Char} (h : isAllBlank cs = true) : trimStart cs = [] :=
  List.dropWhile_eq_nil_iff.mpr (List.all_eq_true.mp h)

theorem trim_of_isAllBlank {cs : List Char} (h : isAllBlank cs = true) : trim cs = [] := by
  rw [trim, trimStart_of_isAllBlank h]
  rfl

theorem isBlank_of_mem_head?_trimStart {cs : List Char} {c : Char} (h : c ∈ (trimStart cs).head?) :
    isBlank c = false := by
  have hn := List.head?_dropWhile_not isBlank cs
  rw [← trimStart, Option.mem_def.mp h] at hn
  simpa using hn

theorem trimmed_trim (text : List Char) : Trimmed text (trim text) := by
  obtain ⟨after, hs, ha⟩ := Pipeline.exists_dropEndWhile_append isBlank (trimStart text)
  rw [← trimEnd, ← trim] at hs
  refine ⟨⟨text.takeWhile isBlank, after, ?_, fun c => List.mem_takeWhile_imp, ha⟩, ?_, fun c hc =>
    Pipeline.getLast?_dropEndWhile hc⟩
  · rw [← hs, trimStart, List.takeWhile_append_dropWhile]
  · intro c hc
    have hh : c ∈ (trimStart text).head? := by
      rw [hs, List.head?_append, Option.mem_def.mp hc]
      rfl
    exact isBlank_of_mem_head?_trimStart hh

/-- There is only one text without the blanks at both ends. -/
theorem Trimmed.eq {text core : List Char} (h : Trimmed text core) : trim text = core := by
  obtain ⟨⟨before, after, rfl, hb, ha⟩, hf, hl⟩ := h
  have hl' (c : Char) (hc : core.getLast? = some c) : isBlank c = false := hl c hc
  rw [trim, trimStart, List.dropWhile_append_of_pos hb]
  cases core with
  | nil =>
    rw [List.nil_append, List.dropWhile_eq_nil_iff.mpr ha]
    rfl
  | cons c core =>
    rw [List.cons_append, List.dropWhile_cons_of_neg (by simp [hf c rfl]), ← List.cons_append]
    exact Pipeline.dropEndWhile_append ha hl'

theorem trim_eq_nil_iff {text : List Char} : trim text = [] ↔ isAllBlank text = true := by
  refine ⟨fun h => ?_, trim_of_isAllBlank⟩
  obtain ⟨⟨before, after, hs, hb, ha⟩, -, -⟩ := trimmed_trim text
  rw [h, List.nil_append] at hs
  rw [hs, isAllBlank_append, isAllBlank, isAllBlank, List.all_eq_true.mpr hb,
    List.all_eq_true.mpr ha]
  rfl

theorem trim_trim (text : List Char) : trim (trim text) = trim text := by
  obtain ⟨-, hf, hl⟩ := trimmed_trim text
  exact Trimmed.eq ⟨⟨[], [], by simp, by simp, by simp⟩, hf, hl⟩

theorem mem_of_mem_trim {text : List Char} {c : Char} (h : c ∈ trim text) : c ∈ text := by
  obtain ⟨⟨before, after, hs, -, -⟩, -, -⟩ := trimmed_trim text
  rw [hs]
  exact List.mem_append_right _ (List.mem_append_left _ h)

/-- A blank at the end makes no difference. -/
theorem trim_concat {text : List Char} {c : Char} (h : isBlank c = true) :
    trim (text ++ [c]) = trim text := by
  obtain ⟨⟨before, after, hs, hb, ha⟩, hf, hl⟩ := trimmed_trim text
  refine Trimmed.eq ⟨⟨before, after ++ [c], ?_, hb, ?_⟩, hf, hl⟩
  · simp only [← List.append_assoc] at hs ⊢
    rw [← hs]
  · simpa [or_imp, forall_and, h] using ha

/-! ### Lines -/

/-- A text is a last line, or a line with a newline and a text after it. -/
@[elab_as_elim]
theorem lineInduction {motive : List Char → Prop} (last : ∀ line, '\n' ∉ line → motive line)
    (next : ∀ line rest, '\n' ∉ line → motive rest → motive (line ++ '\n' :: rest))
    (cs : List Char) : motive cs := by
  induction hl : cs.length using Nat.strongRecOn generalizing cs with
  | _ n ih =>
    rcases hs : splitAt? '\n' cs with _ | ⟨line, rest⟩
    · exact last cs (splitAt?_eq_none_iff.mp hs)
    · obtain ⟨rfl, hn⟩ := splitAt?_eq_some_iff.mp hs
      have hr : rest.length < n := by
        rw [← hl, List.length_append, List.length_cons]
        omega
      exact next line rest hn (ih _ hr rest rfl)

theorem lines_of_notMem {line : List Char} (hn : '\n' ∉ line) :
    lines line = if line = [] then [] else [line] := by
  induction line with
  | nil => rfl
  | cons c line ih =>
    obtain ⟨hc, hn'⟩ := List.ne_and_not_mem_of_not_mem_cons hn
    rw [lines, ih hn']
    · cases line with
      | nil => rfl
      | cons d line => rfl
    · exact Ne.symm hc
    · rintro r rfl rfl
      exact hn' List.mem_cons_self

/-- What the first line of a text is, up to a carriage return at its end. -/
theorem exists_lines_append {line : List Char} (hn : '\n' ∉ line) (rest : List Char) :
    ∃ first, lines (line ++ '\n' :: rest) = first :: lines rest ∧
      (line = first ∨ line = first ++ ['\r']) := by
  induction line with
  | nil => exact ⟨[], by rw [List.nil_append, lines], .inl rfl⟩
  | cons c line ih =>
    obtain ⟨hc, hn'⟩ := List.ne_and_not_mem_of_not_mem_cons hn
    by_cases hr : c = '\r' ∧ line = []
    · obtain ⟨rfl, rfl⟩ := hr
      exact ⟨[], by rw [List.cons_append, List.nil_append, lines], .inr rfl⟩
    · obtain ⟨first, hl, hf⟩ := ih hn'
      refine ⟨c :: first, ?_, ?_⟩
      · rw [List.cons_append, lines, hl]
        · exact Ne.symm hc
        · rintro r rfl hnext
          cases line with
          | nil => exact hr ⟨rfl, rfl⟩
          | cons d line =>
            obtain ⟨rfl, -⟩ := List.cons.inj hnext
            exact hn' List.mem_cons_self
      · rcases hf with rfl | rfl
        · exact .inl rfl
        · exact .inr rfl

end Text

namespace Reply

/-! ### One line -/

/-- The command of a line, if it has one. -/
def commandOf (line : List Char) : List (List Char) :=
  if Text.isAllBlank line then [] else [Text.trim line]

theorem filter_trim (line : List Char) :
    [Text.trim line].filter (!·.isEmpty) = commandOf line := by
  rw [commandOf]
  by_cases hb : Text.isAllBlank line = true
  · rw [if_pos hb, Text.trim_of_isAllBlank hb]
    rfl
  · have ht : (Text.trim line).isEmpty = false := by
      rw [List.isEmpty_eq_false_iff, Ne, Text.trim_eq_nil_iff]
      exact hb
    rw [if_neg hb, List.filter_cons_of_pos (by rw [ht]; rfl), List.filter_nil]

theorem commandOf_concat {line : List Char} {c : Char} (h : Text.isBlank c = true) :
    commandOf (line ++ [c]) = commandOf line := by
  rw [← filter_trim, Text.trim_concat h, filter_trim]

/-! ### Many lines -/

theorem commandsOf_of_notMem {line : List Char} (hn : '\n' ∉ line) :
    commandsOf line = commandOf line := by
  rw [commandsOf, Text.lines_of_notMem hn, ← filter_trim]
  split
  case isTrue hnil =>
    rw [hnil]
    rfl
  case isFalse => rfl

theorem commandsOf_line_append {line : List Char} (hn : '\n' ∉ line) (rest : List Char) :
    commandsOf (line ++ '\n' :: rest) = commandOf line ++ commandsOf rest := by
  obtain ⟨first, hl, hf⟩ := Text.exists_lines_append hn rest
  have hc : commandOf line = commandOf first := by
    rcases hf with rfl | rfl
    · rfl
    · exact commandOf_concat rfl
  rw [commandsOf, hl, List.map_cons, ← List.singleton_append, List.filter_append, filter_trim, hc]
  rfl

/-- The commands of a text are those of the pieces between its newlines. -/
theorem commandsOf_eq (cs : List Char) : commandsOf cs = (cs.splitOn '\n').flatMap commandOf := by
  induction cs using Text.lineInduction with
  | last line hn =>
    rw [commandsOf_of_notMem hn, List.splitOn_eq_singleton hn, List.flatMap_singleton]
  | next line rest hn ih =>
    rw [commandsOf_line_append hn, ih, List.splitOn_append_cons_self,
      List.splitOn_eq_singleton hn, List.singleton_append, List.flatMap_cons]

theorem commandsOf_append (a b : List Char) :
    commandsOf (a ++ '\n' :: b) = commandsOf a ++ commandsOf b := by
  rw [commandsOf_eq, List.splitOn_append_cons_self, List.flatMap_append, ← commandsOf_eq,
    ← commandsOf_eq]

/-- A carriage return at the end of a text makes no difference. -/
theorem commandsOf_concat (a : List Char) : commandsOf (a ++ ['\r']) = commandsOf a := by
  induction a using Text.lineInduction with
  | last line hn =>
    have hr : '\n' ∉ line ++ ['\r'] := by simp [hn]
    rw [commandsOf_of_notMem hr, commandsOf_of_notMem hn, commandOf_concat rfl]
  | next line rest hn ih =>
    rw [List.append_assoc, List.cons_append, commandsOf_append, ih, commandsOf_append]

/-- Texts that are joined with newlines give their commands in turn. -/
theorem commandsOf_intercalate (texts : List (List Char)) :
    commandsOf (['\n'].intercalate texts) = texts.flatMap commandsOf := by
  induction texts with
  | nil => rfl
  | cons a texts ih =>
    cases texts with
    | nil => rw [List.intercalate_singleton, List.flatMap_singleton]
    | cons b texts =>
      rw [List.intercalate_cons_cons, List.append_assoc, List.singleton_append,
        commandsOf_append, ih, ← List.flatMap_cons]

/-! ### Commands -/

/-- Whether a text is a command as it stands: one line with no blanks around it. -/
structure IsCommand (cs : List Char) : Prop where
  ne_nil : cs ≠ []
  trimmed : Text.trim cs = cs
  notMem : '\n' ∉ cs

theorem IsCommand.commandsOf_eq {cs : List Char} (h : IsCommand cs) : commandsOf cs = [cs] := by
  have hb : Text.isAllBlank cs ≠ true := by
    rw [Ne, ← Text.trim_eq_nil_iff, h.trimmed]
    exact h.ne_nil
  rw [commandsOf_of_notMem h.notMem, commandOf, if_neg hb, h.trimmed]

theorem isCommand_of_mem_commandOf {line command : List Char} (hn : '\n' ∉ line)
    (h : command ∈ commandOf line) : IsCommand command := by
  rw [commandOf] at h
  split at h
  case isTrue => cases h
  case isFalse hb =>
    obtain rfl := List.mem_singleton.mp h
    exact ⟨fun he => hb (Text.trim_eq_nil_iff.mp he), Text.trim_trim line,
      fun hm => hn (Text.mem_of_mem_trim hm)⟩

theorem isCommand_of_mem {cs command : List Char} (h : command ∈ commandsOf cs) :
    IsCommand command := by
  induction cs using Text.lineInduction with
  | last line hn =>
    rw [commandsOf_of_notMem hn] at h
    exact isCommand_of_mem_commandOf hn h
  | next line rest hn ih =>
    rw [commandsOf_line_append hn, List.mem_append] at h
    exact h.elim (isCommand_of_mem_commandOf hn) ih

theorem forall₂_trimmed (pieces : List (List Char)) :
    List.Forall₂ Text.Trimmed (pieces.filter (!Text.isAllBlank ·)) (pieces.flatMap commandOf) := by
  induction pieces with
  | nil => exact .nil
  | cons p pieces ih =>
    rw [List.flatMap_cons, commandOf]
    by_cases hb : Text.isAllBlank p = true
    · rw [if_pos hb, List.filter_cons_of_neg (by simp [hb])]
      exact ih
    · rw [if_neg hb, List.filter_cons_of_pos (by simp [hb])]
      exact .cons (Text.trimmed_trim p) ih

/-! ### Replies -/

theorem toList_commands (reply : String) :
    (commands reply).map String.toList = commandsOf reply.toList := by
  simp [commands, Function.comp_def]

theorem commands_append (a b : String) : commands (a ++ "\n" ++ b) = commands a ++ commands b := by
  have ht : (a ++ "\n" ++ b).toList = a.toList ++ '\n' :: b.toList := by simp
  rw [commands, ht, commandsOf_append, List.map_append]
  rfl

theorem commands_append_return (a : String) : commands (a ++ "\r") = commands a := by
  have ht : (a ++ "\r").toList = a.toList ++ ['\r'] := by simp
  rw [commands, ht, commandsOf_concat]
  rfl

theorem commands_intercalate (texts : List String) :
    commands ("\n".intercalate texts) = texts.flatMap commands := by
  have ht : "\n".toList = ['\n'] := rfl
  rw [commands, String.toList_intercalate, ht, commandsOf_intercalate, List.flatMap_map,
    List.map_flatMap]
  rfl

theorem IsCommand.commands_eq {c : String} (h : IsCommand c.toList) : commands c = [c] := by
  rw [commands, h.commandsOf_eq, List.map_singleton, String.ofList_toList]

theorem commands_intercalate_of_isCommand {cs : List String} (h : ∀ c ∈ cs, IsCommand c.toList) :
    commands ("\n".intercalate cs) = cs := by
  rw [commands_intercalate, List.flatMap_congr fun c hc => (h c hc).commands_eq,
    List.flatMap_singleton']

/-- The commands of a reply are the pieces between its newlines that are not all blank, each without
the blanks around it, in their order. Texts with a newline between them, or a carriage return and a
newline, give their commands in turn. Commands that are joined with newlines come back as they are,
and so do those of a reply. -/
theorem commands_of_lines :
    (∀ reply : String, List.Forall₂ Text.Trimmed
      ((reply.toList.splitOn '\n').filter (!Text.isAllBlank ·))
      ((commands reply).map String.toList)) ∧
    (∀ a b, commands (a ++ "\n" ++ b) = commands a ++ commands b) ∧
    (∀ a b, commands (a ++ "\r\n" ++ b) = commands a ++ commands b) ∧
    (∀ cs : List String, (∀ c ∈ cs, IsCommand c.toList) →
      commands ("\n".intercalate cs) = cs) ∧
    ∀ reply, commands ("\n".intercalate (commands reply)) = commands reply := by
  refine ⟨?_, commands_append, ?_, fun cs => commands_intercalate_of_isCommand, ?_⟩
  · intro reply
    rw [toList_commands, commandsOf_eq]
    exact forall₂_trimmed _
  · intro a b
    have ht : "\r\n" = "\r" ++ "\n" := rfl
    rw [ht, ← String.append_assoc, commands_append, commands_append_return]
  · intro reply
    refine commands_intercalate_of_isCommand fun c hc => ?_
    have hm : c.toList ∈ commandsOf reply.toList := by
      rw [← toList_commands]
      exact List.mem_map_of_mem hc
    exact isCommand_of_mem hm

/-- Three commands, one with blanks inside and one with a carriage return. -/
theorem commands_of_lines_three :
    (∀ c ∈ ["ls -la", "echo a\rb", "exit"], IsCommand c.toList) ∧
      commands ("\n".intercalate ["ls -la", "echo a\rb", "exit"]) =
        ["ls -la", "echo a\rb", "exit"] := by
  have h : ∀ c ∈ ["ls -la", "echo a\rb", "exit"], IsCommand c.toList := by
    intro c hc
    simp only [List.mem_cons, List.not_mem_nil, or_false] at hc
    rcases hc with rfl | rfl | rfl <;> exact ⟨by decide, by decide, by decide⟩
  obtain ⟨-, -, -, hj, -⟩ := commands_of_lines
  exact ⟨h, hj _ h⟩

end Reply

end AssistedShell
