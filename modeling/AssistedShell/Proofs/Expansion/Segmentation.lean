import AssistedShell.Expansion
import Mathlib.Data.List.Basic
import Mathlib.Data.List.TakeWhile

/-! The references of a line. A line falls into literal texts and references,
and where they are is read off the line alone: a dollar sign begins a reference
when no backslash protects it, no earlier reference has taken it, and a name
character or an opening brace follows. The expansion under any variables is the
literal texts as they stand, with each reference replaced by the value of its
name. -/

namespace AssistedShell.Expansion

/-! ### Pieces of a line -/

/-- A piece of a line: a text that stands for itself, a name after a dollar
sign, or a name in braces, of which the closing one may be missing. -/
inductive Piece
  | literal (text : List Char)
  | plain (name : List Char)
  | braced (name : List Char) (closed : Bool)
deriving Repr, DecidableEq

/-- The characters of a line that a piece is. -/
def Piece.source : Piece → List Char
  | .literal text => text
  | .plain name => '$' :: name
  | .braced name closed => '$' :: '{' :: (name ++ if closed then ['}'] else [])

/-- The name of a reference. -/
def Piece.name? : Piece → Option (List Char)
  | .literal _ => none
  | .plain name | .braced name _ => some name

/-- What a piece becomes: a reference is the value of its name, or nothing. -/
def Piece.expanded (lookup : String → Option String) (p : Piece) : List Char :=
  match p.name? with
  | none => p.source
  | some name =>
    match lookup (String.ofList name) with
    | none => []
    | some text => text.toList

/-- The characters that pieces are. -/
def written (ps : List Piece) : List Char := ps.flatMap Piece.source

@[simp] theorem written_nil : written [] = [] := rfl

@[simp] theorem written_cons (p : Piece) (ps : List Piece) :
    written (p :: ps) = p.source ++ written ps := rfl

/-- A letter of the Latin alphabet, a digit or an underscore. -/
def NameChar (c : Char) : Prop :=
  ('A' ≤ c ∧ c ≤ 'Z') ∨ ('a' ≤ c ∧ c ≤ 'z') ∨ ('0' ≤ c ∧ c ≤ '9') ∨ c = '_'

theorem isNameChar_iff (c : Char) : isNameChar c ↔ NameChar c := by
  have hupper : c.isUpper = decide ('A' ≤ c ∧ c ≤ 'Z') := rfl
  have hlower : c.isLower = (decide ('a' ≤ c) && decide (c ≤ 'z')) := rfl
  have hdigit : c.isDigit = (decide ('0' ≤ c) && decide (c ≤ '9')) := rfl
  have hc : isNameChar c = (c.isUpper || c.isLower || c.isDigit || c == '_') := rfl
  rw [hc, hupper, hlower, hdigit]
  simp only [NameChar, Bool.or_eq_true, Bool.and_eq_true, decide_eq_true_eq, beq_iff_eq, or_assoc]

/-- Whether a piece is as long as it can be, before the rest of its line. -/
def Piece.Whole (rest : List Char) : Piece → Prop
  | .literal text => text ≠ []
  | .plain name => name ≠ [] ∧ (∀ c ∈ name, NameChar c) ∧ ∀ c ∈ rest.head?, ¬ NameChar c
  | .braced name closed => '}' ∉ name ∧ (closed = false → rest = [])

/-! ### Dollar signs -/

/-- Whether a text ends in a backslash that protects what comes next. The
backslashes are taken in pairs with their characters, from the left. -/
def dangling (before : List Char) : Bool := before.foldl (fun b c => c == '\\' && !b) false

/-- Whether a text begins as a reference does after its dollar sign. -/
def Follows (after : List Char) : Prop := ∃ c ∈ after.head?, NameChar c ∨ c = '{'

/-- Whether a reference begins right after the text before it. -/
def Begins (ps : List Piece) (before : List Char) : Prop :=
  ∃ earlier p later, ps = earlier ++ p :: later ∧ p.name?.isSome ∧ written earlier = before

/-- Whether the character right after a text belongs to a reference that began earlier. -/
def Inside (ps : List Piece) (before : List Char) : Prop :=
  ∃ earlier p later begun ahead, ps = earlier ++ p :: later ∧ p.name?.isSome ∧
    p.source = begun ++ ahead ∧ begun ≠ [] ∧ ahead ≠ [] ∧ before = written earlier ++ begun

/-- Whether a dollar sign between two texts is to begin a reference. -/
def Refers (ps : List Piece) (before after : List Char) : Prop :=
  dangling before = false ∧ ¬ Inside ps before ∧ Follows after

/-- What it is for pieces to be the ones of a line. -/
structure Segmentation (line : List Char) (ps : List Piece) : Prop where
  joined : written ps = line
  whole : ∀ earlier p later, ps = earlier ++ p :: later → p.Whole (written later)
  dollar : ∀ before after, line = before ++ '$' :: after →
    (Begins ps before ↔ Refers ps before after)

/-! ### The first piece of a line -/

section
variable {p : Piece} {ps : List Piece} {before text : List Char}

theorem begins_cons_iff :
    Begins (p :: ps) before ↔ (p.name?.isSome ∧ before = []) ∨
      ∃ rest, Begins ps rest ∧ before = p.source ++ rest := by
  constructor
  · rintro ⟨earlier, q, later, h, hq, rfl⟩
    cases earlier with
    | nil =>
      obtain ⟨rfl, rfl⟩ := List.cons.inj h
      exact .inl ⟨hq, rfl⟩
    | cons p' earlier =>
      obtain ⟨rfl, rfl⟩ := List.cons.inj h
      exact .inr ⟨_, ⟨earlier, q, later, rfl, hq, rfl⟩, rfl⟩
  · rintro (⟨hp, rfl⟩ | ⟨rest, ⟨earlier, q, later, rfl, hq, rfl⟩, rfl⟩)
    · exact ⟨[], p, ps, rfl, hp, rfl⟩
    · exact ⟨p :: earlier, q, later, rfl, hq, rfl⟩

theorem inside_cons_iff :
    Inside (p :: ps) before ↔
      (p.name?.isSome ∧ before ≠ [] ∧ ∃ ahead, ahead ≠ [] ∧ p.source = before ++ ahead) ∨
        ∃ rest, Inside ps rest ∧ before = p.source ++ rest := by
  constructor
  · rintro ⟨earlier, q, later, begun, ahead, h, hq, hs, hb, ha, rfl⟩
    cases earlier with
    | nil =>
      obtain ⟨rfl, rfl⟩ := List.cons.inj h
      exact .inl ⟨hq, hb, ahead, ha, hs⟩
    | cons p' earlier =>
      obtain ⟨rfl, rfl⟩ := List.cons.inj h
      exact .inr ⟨_, ⟨earlier, q, later, begun, ahead, rfl, hq, hs, hb, ha, rfl⟩,
        List.append_assoc _ _ _⟩
  · rintro (⟨hp, hb, ahead, ha, hs⟩ | ⟨rest, ⟨earlier, q, later, begun, ahead, rfl, hq, hs, hb,
      ha, rfl⟩, rfl⟩)
    · exact ⟨[], p, ps, before, ahead, rfl, hp, hs, hb, ha, rfl⟩
    · exact ⟨p :: earlier, q, later, begun, ahead, rfl, hq, hs, hb, ha,
        (List.append_assoc _ _ _).symm⟩

/-- Past the first piece, the references are the ones of the other pieces. -/
theorem begins_append_iff (hp : p.source ≠ []) :
    Begins (p :: ps) (p.source ++ text) ↔ Begins ps text := by
  rw [begins_cons_iff]
  constructor
  · rintro (⟨-, h⟩ | ⟨rest, h, hr⟩)
    · exact absurd (List.append_eq_nil_iff.mp h).1 hp
    · exact List.append_cancel_left hr ▸ h
  · exact fun h => .inr ⟨text, h, rfl⟩

theorem inside_append_iff : Inside (p :: ps) (p.source ++ text) ↔ Inside ps text := by
  rw [inside_cons_iff]
  constructor
  · rintro (⟨-, -, ahead, ha, h⟩ | ⟨rest, h, hr⟩)
    · have := congrArg List.length h
      have := List.length_pos_iff.mpr ha
      simp only [List.length_append] at *
      omega
    · exact List.append_cancel_left hr ▸ h
  · exact fun h => .inr ⟨text, h, rfl⟩

/-- Before the end of the first piece, only that piece counts. -/
theorem begins_of_source_eq {after : List Char} (h : p.source = before ++ '$' :: after) :
    Begins (p :: ps) before ↔ p.name?.isSome ∧ before = [] := by
  rw [begins_cons_iff, or_iff_left]
  rintro ⟨rest, -, hr⟩
  have := congrArg List.length h
  have := congrArg List.length hr
  simp only [List.length_append, List.length_cons] at *
  omega

theorem inside_of_source_eq {after : List Char} (h : p.source = before ++ '$' :: after) :
    Inside (p :: ps) before ↔ p.name?.isSome ∧ before ≠ [] := by
  rw [inside_cons_iff, or_iff_left]
  · exact ⟨fun ⟨hp, hb, _⟩ => ⟨hp, hb⟩, fun ⟨hp, hb⟩ => ⟨hp, hb, _, List.cons_ne_nil _ _, h⟩⟩
  · rintro ⟨rest, -, hr⟩
    have := congrArg List.length h
    have := congrArg List.length hr
    simp only [List.length_append, List.length_cons] at *
    omega

end

theorem dangling_append {p text : List Char} (h : dangling p = false) :
    dangling (p ++ text) = dangling text := by
  rw [dangling, List.foldl_append, ← dangling, h, ← dangling]

/-- What a piece must be to stand before the segmentation of the rest: no
backslash at its end is still to be paired, and its dollar signs are right. -/
structure Piece.Leads (p : Piece) (rest : List Char) : Prop where
  whole : p.Whole rest
  nonempty : p.source ≠ []
  paired : rest ≠ [] → dangling p.source = false
  dollar : ∀ before after, p.source = before ++ '$' :: after →
    ((p.name?.isSome ∧ before = []) ↔
      dangling before = false ∧ ¬ (p.name?.isSome ∧ before ≠ []) ∧ Follows (after ++ rest))

theorem segmentation_nil : Segmentation [] [] where
  joined := rfl
  whole := by simp
  dollar := by simp

theorem Segmentation.cons {p : Piece} {rest : List Char} {ps : List Piece}
    (h : Segmentation rest ps) (hp : p.Leads rest) :
    Segmentation (p.source ++ rest) (p :: ps) where
  joined := by rw [written_cons, h.joined]
  whole := by
    intro earlier q later heq
    cases earlier with
    | nil =>
      obtain ⟨rfl, rfl⟩ := List.cons.inj heq
      rw [h.joined]
      exact hp.whole
    | cons p' earlier =>
      obtain ⟨rfl, rfl⟩ := List.cons.inj heq
      exact h.whole earlier q later rfl
  dollar := by
    intro before after heq
    -- The dollar sign is past the piece, or in it.
    rcases List.append_eq_append_iff.mp heq with ⟨mid, rfl, hr⟩ | ⟨mid, hs, hr⟩
    · have hd : dangling p.source = false := hp.paired (by simp [hr])
      rw [Refers, begins_append_iff hp.nonempty, inside_append_iff, dangling_append hd]
      exact h.dollar mid after hr
    · cases mid with
      | nil =>
        rw [List.append_nil] at hs
        rw [List.nil_append] at hr
        have hd : dangling p.source = false := hp.paired (by simp [← hr])
        have := h.dollar [] after hr.symm
        rw [← List.append_nil p.source] at hs
        rw [← hs, Refers, begins_append_iff hp.nonempty, inside_append_iff, dangling_append hd]
        exact this
      | cons c mid =>
        obtain ⟨rfl, rfl⟩ := List.cons.inj hr
        rw [Refers, begins_of_source_eq hs, inside_of_source_eq hs]
        exact hp.dollar before mid hs

/-! ### The pieces of a line -/

/-- The pieces of a line: an escaped character with its backslash, a reference,
or one character. -/
def pieces : List Char → List Piece
  | [] => []
  | '\\' :: c :: r => .literal ['\\', c] :: pieces r
  | '$' :: '{' :: r => .braced (r.takeWhile (· ≠ '}')) (r.contains '}') :: pieces (afterBrace r)
  | '$' :: c :: r =>
    if isNameChar c then .plain (c :: r.takeWhile isNameChar) :: pieces (r.dropWhile isNameChar)
    else .literal ['$'] :: pieces (c :: r)
  | c :: r => .literal [c] :: pieces r
termination_by cs => cs.length
decreasing_by
  all_goals simp only [List.length_cons]
  · omega
  · have := length_afterBrace_le r; omega
  · have := length_dropWhile_le isNameChar r; omega
  · omega
  · omega

/-- A line after an opening brace is the name, the closing brace and the rest,
or, without a closing brace, only a name. -/
theorem exists_braced (r : List Char) :
    ('}' ∉ r ∧ r.takeWhile (· ≠ '}') = r ∧ afterBrace r = []) ∨
      ∃ name rest, r = name ++ '}' :: rest ∧ '}' ∉ name ∧
        r.takeWhile (· ≠ '}') = name ∧ afterBrace r = rest := by
  by_cases hm : '}' ∈ r
  · obtain ⟨name, rest, rfl, hn⟩ := List.eq_append_cons_of_mem hm
    have hp : ∀ c ∈ name, decide (c ≠ '}') = true := by
      intro c hc
      exact decide_eq_true (ne_of_mem_of_not_mem hc hn)
    refine .inr ⟨name, rest, rfl, hn, ?_, ?_⟩
    · rw [List.takeWhile_append_of_pos hp, List.takeWhile_cons_of_neg (by simp), List.append_nil]
    · rw [afterBrace, List.dropWhile_append_of_pos hp, List.dropWhile_cons_of_neg (by simp)]
      rfl
  · have hp : ∀ c ∈ r, decide (c ≠ '}') = true := by
      intro c hc
      exact decide_eq_true (ne_of_mem_of_not_mem hc hm)
    refine .inl ⟨hm, List.takeWhile_eq_self_iff.mpr hp, ?_⟩
    rw [afterBrace, List.dropWhile_eq_nil_iff.mpr hp]
    rfl

theorem dangling_concat (text : List Char) {c : Char} (hc : c ≠ '\\') :
    dangling (text ++ [c]) = false := by
  rw [dangling, List.foldl_append, List.foldl_cons, List.foldl_nil, beq_false_of_ne hc,
    Bool.false_and]

theorem dangling_of_notMem {text : List Char} (h : '\\' ∉ text) : dangling text = false := by
  rcases List.eq_nil_or_concat text with rfl | ⟨init, c, rfl⟩
  · rfl
  · rw [List.concat_eq_append] at h ⊢
    exact dangling_concat init (fun hc => h (by simp [hc]))

theorem leads_escaped (c : Char) (rest : List Char) : (Piece.literal ['\\', c]).Leads rest where
  whole := List.cons_ne_nil _ _
  nonempty := List.cons_ne_nil _ _
  paired := fun _ => by simp [Piece.source, dangling]
  dollar := by
    intro before after h
    -- The dollar sign can only be the character that the backslash protects.
    rcases before with _ | ⟨b, _ | ⟨b', before⟩⟩
    · cases h
    · cases h
      simp [Piece.name?, dangling]
    · simp [Piece.source] at h

theorem leads_literal {c : Char} {rest : List Char} (hb : c = '\\' → rest = [])
    (hd : c = '$' → ¬ Follows rest) : (Piece.literal [c]).Leads rest where
  whole := List.cons_ne_nil _ _
  nonempty := List.cons_ne_nil _ _
  paired := fun hr => dangling_concat [] (fun hc => hr (hb hc))
  dollar := by
    intro before after h
    cases before with
    | nil =>
      cases h
      simpa [Piece.name?] using fun _ => hd rfl
    | cons b before => simp [Piece.source] at h

theorem leads_reference {p : Piece} {rest tail : List Char} (hp : p.name?.isSome)
    (hs : p.source = '$' :: tail) (hf : Follows (tail ++ rest))
    (hd : rest ≠ [] → dangling p.source = false) (hw : p.Whole rest) : p.Leads rest where
  whole := hw
  nonempty := by simp [hs]
  paired := hd
  dollar := by
    intro before after h
    cases before with
    | nil =>
      obtain ⟨-, rfl⟩ := List.cons.inj (hs.symm.trans h)
      exact iff_of_true ⟨hp, rfl⟩ ⟨rfl, fun hn => hn.2 rfl, hf⟩
    | cons b before =>
      exact iff_of_false (fun hn => List.cons_ne_nil _ _ hn.2)
        fun hn => hn.2.1 ⟨hp, List.cons_ne_nil _ _⟩

theorem leads_braced (r : List Char) :
    (Piece.braced (r.takeWhile (· ≠ '}')) (r.contains '}')).Leads (afterBrace r) := by
  rcases exists_braced r with ⟨hr, ht, ha⟩ | ⟨name, rest, rfl, hn, ht, ha⟩
  · rw [ht, ha]
    exact leads_reference rfl rfl ⟨'{', rfl, .inr rfl⟩ (fun h => absurd rfl h)
      ⟨hr, fun _ => rfl⟩
  · rw [ht, ha]
    have hc : (name ++ '}' :: rest).contains '}' = true := by simp
    rw [hc]
    refine leads_reference rfl rfl ⟨'{', rfl, .inr rfl⟩ (fun _ => ?_) ⟨hn, nofun⟩
    exact dangling_concat ('$' :: '{' :: name) (by decide)

theorem source_braced (r : List Char) :
    (Piece.braced (r.takeWhile (· ≠ '}')) (r.contains '}')).source ++ afterBrace r =
      '$' :: '{' :: r := by
  rcases exists_braced r with ⟨hr, ht, ha⟩ | ⟨name, rest, rfl, hn, ht, ha⟩
  · rw [ht, ha]
    simp [Piece.source, hr]
  · rw [ht, ha]
    simp [Piece.source]

theorem leads_plain {c : Char} (hc : isNameChar c) (r : List Char) :
    (Piece.plain (c :: r.takeWhile isNameChar)).Leads (r.dropWhile isNameChar) := by
  have hall : ∀ d ∈ c :: r.takeWhile isNameChar, isNameChar d := by
    rintro d (_ | ⟨_, hd⟩)
    · exact hc
    · exact List.mem_takeWhile_imp hd
  refine leads_reference rfl rfl ⟨c, rfl, .inl ((isNameChar_iff c).mp hc)⟩ (fun _ => ?_)
    ⟨List.cons_ne_nil _ _, fun d hd => (isNameChar_iff d).mp (hall d hd), ?_⟩
  · refine dangling_of_notMem fun hm => ?_
    rcases hm with _ | ⟨_, hm⟩
    exact absurd (hall _ hm) (by decide)
  · intro d hd hn
    have := List.head?_dropWhile_not isNameChar r
    rw [Option.mem_def.mp hd] at this
    exact absurd ((isNameChar_iff d).mpr hn) (by simpa using this)

theorem pieces_segmentation (line : List Char) : Segmentation line (pieces line) := by
  fun_induction pieces line with
  | case1 => exact segmentation_nil
  | case2 c r ih => exact ih.cons (leads_escaped c r)
  | case3 r ih =>
    rw [← source_braced r]
    exact ih.cons (leads_braced r)
  | case4 c r hb hc ih =>
    have := ih.cons (leads_plain hc r)
    rwa [Piece.source, List.cons_append, List.cons_append, List.takeWhile_append_dropWhile] at this
  | case5 c r hb hc ih =>
    refine ih.cons (leads_literal (by simp) fun _ => ?_)
    rintro ⟨d, hd, hn⟩
    cases hd
    rcases hn with hn | hn
    · exact hc ((isNameChar_iff c).mpr hn)
    · exact hb hn
  | case6 c r he hb hd ih =>
    refine ih.cons (leads_literal (fun hc => ?_) fun hc => ?_)
    · cases r with
      | nil => rfl
      | cons d r => exact (he d r hc rfl).elim
    · rintro ⟨d, hr, -⟩
      obtain ⟨r, rfl⟩ := List.head?_eq_some_iff.mp hr
      exact hd d r hc rfl

/-! ### The expansion by pieces -/

theorem expanded_of_name? (lookup : String → Option String) {p : Piece} {name : List Char}
    (h : p.name? = some name) : p.expanded lookup = value lookup name := by
  simp only [Piece.expanded, h, value]
  cases lookup (String.ofList name) with
  | none => rfl
  | some text => rfl

theorem expand_eq_flatMap (lookup : String → Option String) (line : List Char) :
    expand lookup line = (pieces line).flatMap (Piece.expanded lookup) := by
  fun_induction pieces line with
  | case1 => rw [expand]; rfl
  | case2 c r ih => rw [expand, ih]; rfl
  | case3 r ih => rw [expand, ih, List.flatMap_cons, expanded_of_name? lookup rfl]
  | case4 c r hb hc ih =>
    rw [expand, if_pos hc, ih, List.flatMap_cons, expanded_of_name? lookup rfl]
    exact hb
  | case5 c r hb hc ih =>
    rw [expand, if_neg hc, ih]
    · rfl
    · exact hb
  | case6 c r he hb hd ih =>
    rw [expand, ih]
    · rfl
    · exact he
    · exact hb
    · exact hd

/-- Pieces with no reference among them are left as they are. -/
theorem flatMap_expanded_of_not_begins (lookup : String → Option String) {ps : List Piece}
    (h : ∀ before, ¬ Begins ps before) : ps.flatMap (Piece.expanded lookup) = written ps := by
  refine List.flatMap_congr fun p hp => ?_
  obtain ⟨earlier, later, rfl⟩ := List.append_of_mem hp
  have hn : p.name? = none := by
    cases hp : p.name? with
    | none => rfl
    | some name => exact (h _ ⟨earlier, p, later, rfl, by rw [hp]; rfl, rfl⟩).elim
  rw [Piece.expanded, hn]

/-- A reference begins with a dollar sign of its line. -/
theorem Segmentation.exists_dollar {line : List Char} {ps : List Piece}
    (h : Segmentation line ps) {before : List Char} (hb : Begins ps before) :
    ∃ after, line = before ++ '$' :: after := by
  obtain ⟨earlier, p, later, rfl, hp, rfl⟩ := hb
  have hs : ∃ tail, p.source = '$' :: tail := by
    cases p with
    | literal text => cases hp
    | plain name => exact ⟨_, rfl⟩
    | braced name closed => exact ⟨_, rfl⟩
  obtain ⟨tail, hs⟩ := hs
  refine ⟨tail ++ written later, ?_⟩
  rw [← h.joined, written, List.flatMap_append, ← written, ← written, written_cons, hs,
    List.cons_append]

/-- Every line falls into pieces that no variable has a say in. Under any
variables, its expansion is the literal ones as they are and the value of each
reference, which is not read again; without a reference it is the line. -/
theorem line_by_pieces (s : String) :
    ∃ ps, Segmentation s.toList ps ∧
      (∀ lookup, line lookup s = String.ofList (ps.flatMap (Piece.expanded lookup))) ∧
      ((∀ before after, s.toList = before ++ '$' :: after → ¬ Refers ps before after) →
        ∀ lookup, line lookup s = s) := by
  have hs := pieces_segmentation s.toList
  have he : ∀ lookup, line lookup s =
      String.ofList ((pieces s.toList).flatMap (Piece.expanded lookup)) := by
    intro lookup
    rw [line, expand_eq_flatMap]
  refine ⟨pieces s.toList, hs, he, fun hn lookup => ?_⟩
  have hb : ∀ before, ¬ Begins (pieces s.toList) before := by
    intro before hb
    obtain ⟨after, h⟩ := hs.exists_dollar hb
    exact hn before after h ((hs.dollar before after h).mp hb)
  rw [he, flatMap_expanded_of_not_begins lookup hb, hs.joined, String.ofList_toList]

end AssistedShell.Expansion
