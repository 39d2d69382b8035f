import AssistedShell.History
import AssistedShell.Proofs.Pipeline.HereDocument

/-! The entries of a history file. An entry is a text without the blanks at its
end, with a blank for every newline in it, and it is written with a newline
after it. Whatever else an entry may hold, the lines that are read from entries
written one after another are these entries. -/

namespace AssistedShell

/-! ### Bytes -/

namespace Text

theorem fromUTF8?_toUTF8 (s : String) : String.fromUTF8? s.toUTF8 = some s :=
  dif_pos s.isValidUTF8

theorem toUTF8_of_fromUTF8? {bytes : ByteArray} {s : String}
    (hs : String.fromUTF8? bytes = some s) : s.toUTF8 = bytes := by
  obtain ⟨hv, he⟩ := Option.dite_none_right_eq_some.mp hs
  obtain rfl := Option.some.inj he
  rfl

theorem decodeLossy_toUTF8 (s : String) : decodeLossy s.toUTF8 = s := by
  rw [decodeLossy, fromUTF8?_toUTF8]

/-! ### Lines -/

/-- The first line of a text that begins with it, a newline after it. -/
theorem lines_append {line : List Char} (hn : '\n' ∉ line) (hr : line.getLast? ≠ some '\r')
    (rest : List Char) : lines (line ++ '\n' :: rest) = line :: lines rest := by
  induction line with
  | nil => rw [List.nil_append, lines]
  | cons c line ih =>
    obtain ⟨hc, hn'⟩ := List.ne_and_not_mem_of_not_mem_cons hn
    have hl : line.getLast? ≠ some '\r' := by
      intro hl
      rw [List.getLast?_cons, hl] at hr
      exact hr rfl
    rw [List.cons_append, lines, ih hn' hl]
    · exact Ne.symm hc
    · rintro r rfl hnext
      cases line with
      | nil => exact hr rfl
      | cons d line =>
        obtain ⟨rfl, -⟩ := List.cons.inj hnext
        exact hn' List.mem_cons_self

end Text

namespace History

/-! ### What is kept of a text -/

/-- What is kept of a text. -/
structure Entered (text entry : String) : Prop where
  kept : ∃ front last blanks, text.toList = front ++ last :: blanks ∧
    Text.isBlank last = false ∧ (∀ c ∈ blanks, Text.isBlank c = true) ∧
    entry.toList = (front ++ [last]).map fun c => if c = '\n' then ' ' else c

variable {text entry : String}

theorem isAllBlank_iff {cs : List Char} : Text.isAllBlank cs = true ↔ Text.trimEnd cs = [] := by
  rw [Text.isAllBlank, List.all_eq_true, Text.trimEnd, Text.dropEndWhile, List.reverse_eq_nil_iff,
    List.dropWhile_eq_nil_iff]
  exact forall_congr' fun c => imp_congr_left List.mem_reverse.symm

theorem entry?_eq (text : String) :
    entry? text =
      if Text.trimEnd text.toList = [] then none
      else some (String.ofList (Text.replaceChar '\n' ' ' (Text.trimEnd text.toList))) := by
  unfold entry? String.trimBlankEnd
  dsimp only
  rw [String.toList_ofList]
  exact if_congr (by rw [String.isEmpty_iff, String.ofList_eq_empty_iff]) rfl rfl

theorem entry?_eq_none_iff : entry? text = none ↔ text.isAllBlank = true := by
  rw [entry?_eq, String.isAllBlank, isAllBlank_iff]
  split
  case isTrue hn => exact iff_of_true rfl hn
  case isFalse hn => exact iff_of_false nofun hn

theorem trimEnd_eq {front blanks : List Char} {last : Char} (hl : Text.isBlank last = false)
    (hb : ∀ c ∈ blanks, Text.isBlank c = true) :
    Text.trimEnd (front ++ last :: blanks) = front ++ [last] := by
  rw [List.append_cons]
  refine Pipeline.dropEndWhile_append hb ?_
  intro c hc
  rw [List.getLast?_concat] at hc
  obtain rfl := Option.some.inj hc
  exact hl

theorem entry?_eq_some_iff : entry? text = some entry ↔ Entered text entry := by
  rw [entry?_eq, Option.ite_none_left_eq_some, Option.some_inj]
  constructor
  · rintro ⟨hn, rfl⟩
    obtain ⟨blanks, hs, hb⟩ := Pipeline.exists_dropEndWhile_append Text.isBlank text.toList
    rw [← Text.trimEnd] at hs
    rcases List.eq_nil_or_concat' (Text.trimEnd text.toList) with hnil | ⟨front, last, hk⟩
    · exact absurd hnil hn
    · have hl : Text.isBlank last = false := by
        apply @Pipeline.getLast?_dropEndWhile Text.isBlank text.toList
        rw [← Text.trimEnd, hk, List.getLast?_concat]
      rw [hk] at hs ⊢
      refine ⟨front, last, blanks, ?_, hl, hb, ?_⟩
      · rw [hs, List.append_assoc, List.singleton_append]
      · rw [String.toList_ofList, Text.replaceChar]
  · rintro ⟨front, last, blanks, hs, hl, hb, he⟩
    rw [hs, trimEnd_eq hl hb, Text.replaceChar, ← he, String.ofList_toList]
    exact ⟨List.append_ne_nil_of_right_ne_nil front (List.cons_ne_nil last []), rfl⟩

/-! ### What an entry is -/

theorem Entered.newline_notMem (he : Entered text entry) : '\n' ∉ entry.toList := by
  obtain ⟨front, last, blanks, -, -, -, hk⟩ := he
  rw [hk, List.mem_map]
  rintro ⟨c, -, hc⟩
  split at hc
  · cases hc
  · contradiction

theorem Entered.exists_last (he : Entered text entry) :
    ∃ front last, entry.toList = front ++ [last] ∧ Text.isBlank last = false := by
  obtain ⟨front, last, blanks, -, hl, -, hk⟩ := he
  have hlast : last ≠ '\n' := by
    rintro rfl
    cases hl
  refine ⟨front.map fun c => if c = '\n' then ' ' else c, last, ?_, hl⟩
  rw [hk, List.map_append, List.map_singleton, if_neg hlast]

theorem Entered.isAllBlank_eq_false (he : Entered text entry) : entry.isAllBlank = false := by
  obtain ⟨front, last, hk, hl⟩ := he.exists_last
  rw [String.isAllBlank, Text.isAllBlank, hk, List.all_append, List.all_cons, hl, Bool.false_and,
    Bool.and_false]

theorem Entered.getLast?_ne (he : Entered text entry) : entry.toList.getLast? ≠ some '\r' := by
  obtain ⟨front, last, hk, hl⟩ := he.exists_last
  rw [hk, List.getLast?_concat]
  rintro hr
  obtain rfl := Option.some.inj hr
  cases hl

/-- A text of one line is kept as it is, up to the blanks at its end. -/
theorem Entered.eq_trimBlankEnd (he : Entered text entry) (hn : '\n' ∉ text.toList) :
    entry = text.trimBlankEnd := by
  obtain ⟨front, last, blanks, hs, hl, hb, hk⟩ := he
  have hmap : (front ++ [last]).map (fun c => if c = '\n' then ' ' else c) = front ++ [last] := by
    refine (List.map_congr_left ?_).trans (List.map_id _)
    intro c hc
    refine if_neg ?_
    rintro rfl
    rw [hs, List.append_cons] at hn
    exact hn (List.mem_append_left _ hc)
  rw [hmap] at hk
  rw [String.trimBlankEnd, hs, trimEnd_eq hl hb, ← hk, String.ofList_toList]

/-! ### Reading entries back -/

theorem textLines_textOf {texts entries : List String}
    (he : List.Forall₂ Entered texts entries) :
    (Pipeline.textOf entries).textLines = entries := by
  rw [String.textLines]
  induction he with
  | nil => rfl
  | @cons text entry texts entries h _ ih =>
    rw [Pipeline.textOf_cons, String.toList_append, String.toList_append]
    have hl := Text.lines_append h.newline_notMem h.getLast?_ne (Pipeline.textOf entries).toList
    have hc : entry.toList ++ "\n".toList ++ (Pipeline.textOf entries).toList =
        entry.toList ++ '\n' :: (Pipeline.textOf entries).toList := by
      rw [List.append_assoc]
      rfl
    rw [hc, hl, List.map_cons, ih, String.ofList_toList]

theorem isAllBlank_eq_false_of_mem {texts entries : List String}
    (he : List.Forall₂ Entered texts entries) (hm : entry ∈ entries) :
    entry.isAllBlank = false := by
  induction he with
  | nil => cases hm
  | cons h _ ih =>
    rcases List.mem_cons.mp hm with rfl | hm
    · exact h.isAllBlank_eq_false
    · exact ih hm

/-- What was kept of texts is read back, in their order. -/
theorem entriesOf_textOf {texts entries : List String}
    (he : List.Forall₂ Entered texts entries) :
    entriesOf (Pipeline.textOf entries).toUTF8 = entries := by
  rw [entriesOf, Text.decodeLossy_toUTF8, textLines_textOf he, List.filter_eq_self]
  intro entry hm
  rw [isAllBlank_eq_false_of_mem he hm]
  rfl

/-! ### Appending -/

section
variable {σ : Type} (h : Host σ) (path : String) (s : σ)

theorem append_of_none (he : entry? text = none) :
    History.append h (some path) text s = (.ok (), s) := by
  rw [History.append.eq_def, he]

theorem append_of_some (he : entry? text = some entry) :
    History.append h (some path) text s =
      match makeParent h path s with
      | (.error e, s) => (.error e, s)
      | (.ok (), s) => h.appendPrivate path (entry ++ "\n").toUTF8 s := by
  have ha := History.append.eq_def h (some path) text s
  rw [he] at ha
  exact ha

variable {h path s}

theorem makeParent_ok (hd : ∀ dir, (h.makeDirectories dir s).1 = .ok ()) :
    (makeParent h path s).1 = .ok () := by
  rw [makeParent]
  split
  · rfl
  · rfl
  · exact hd _

/-- A text is appended unless the system refuses to make a directory or to add to the file. -/
theorem append_ok (hd : ∀ dir, (h.makeDirectories dir s).1 = .ok ())
    (ha : ∀ bytes t, (h.appendPrivate path bytes t).1 = .ok ()) (text : String) :
    (History.append h (some path) text s).1 = .ok () := by
  cases he : entry? text with
  | none => rw [append_of_none h path s he]
  | some entry =>
    have hp : (makeParent h path s).1 = .ok () := makeParent_ok hd
    rw [append_of_some h path s he]
    generalize makeParent h path s = x at hp ⊢
    rcases x with ⟨f | _, t⟩
    · cases hp
    · exact ha _ t

end

end History

end AssistedShell
