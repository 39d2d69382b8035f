/-! Finding one text inside another. -/

namespace AssistedShell.Text

/-- Whether `needle` stands somewhere in a text. -/
def occurs (needle : List Char) : List Char → Bool
  | [] => needle.isEmpty
  | c :: r => needle.isPrefixOf (c :: r) || occurs needle r

/-- The text before the first `c` and the text after it; none if there is no `c`. -/
def splitAt? (c : Char) : List Char → Option (List Char × List Char)
  | [] => none
  | d :: r => if d = c then some ([], r) else (splitAt? c r).map fun (a, b) => (d :: a, b)

/-- A text with every `a` replaced by `b`. -/
def replaceChar (a b : Char) (cs : List Char) : List Char :=
  cs.map fun c => if c = a then b else c

theorem occurs_iff (needle cs : List Char) :
    occurs needle cs = true ↔ ∃ a b, cs = a ++ needle ++ b := by
  induction cs with
  | nil =>
    simp only [occurs, List.isEmpty_iff]
    constructor
    · rintro rfl; exact ⟨[], [], rfl⟩
    · rintro ⟨a, b, h⟩
      have := congrArg List.length h
      simp at this
      exact List.length_eq_zero_iff.1 (by omega)
  | cons c r ih =>
    simp only [occurs, Bool.or_eq_true, List.isPrefixOf_iff_prefix, ih]
    constructor
    · rintro (⟨b, hb⟩ | ⟨a, b, h⟩)
      · exact ⟨[], b, by simpa using hb.symm⟩
      · exact ⟨c :: a, b, by simp [h]⟩
    · rintro ⟨a, b, h⟩
      cases a with
      | nil => exact .inl ⟨b, by simpa using h.symm⟩
      | cons d a =>
        simp only [List.cons_append, List.cons.injEq] at h
        exact .inr ⟨a, b, h.2⟩

theorem splitAt?_eq_none_iff {c : Char} {cs : List Char} : splitAt? c cs = none ↔ c ∉ cs := by
  induction cs with
  | nil => simp [splitAt?]
  | cons d cs ih =>
    rw [splitAt?]
    split
    case isTrue hd => simp [hd]
    case isFalse hd =>
      rw [Option.map_eq_none_iff, ih, List.mem_cons, not_or, and_iff_right (Ne.symm hd)]

theorem splitAt?_eq_some_iff {c : Char} {cs before after : List Char} :
    splitAt? c cs = some (before, after) ↔ cs = before ++ c :: after ∧ c ∉ before := by
  induction cs generalizing before with
  | nil => simp [splitAt?]
  | cons d cs ih =>
    rw [splitAt?]
    split
    case isTrue hd =>
      subst hd
      cases before with
      | nil => simp
      | cons e before =>
        constructor
        · intro h
          cases Option.some.inj h
        · rintro ⟨h, hn⟩
          obtain ⟨rfl, -⟩ := List.cons.inj h
          exact absurd List.mem_cons_self hn
    case isFalse hd =>
      rw [Option.map_eq_some_iff]
      cases before with
      | nil =>
        constructor
        · rintro ⟨⟨a, b⟩, -, h⟩
          cases (Prod.mk.inj h).1
        · rintro ⟨h, -⟩
          exact absurd (List.cons.inj h).1 hd
      | cons e before =>
        constructor
        · rintro ⟨⟨a, b⟩, hs, h⟩
          have hp : (d :: a, b) = (e :: before, after) := h
          obtain ⟨hl, rfl⟩ := Prod.mk.inj hp
          obtain ⟨rfl, rfl⟩ := List.cons.inj hl
          obtain ⟨rfl, hn⟩ := ih.mp hs
          exact ⟨rfl, fun hm => (List.mem_cons.mp hm).elim (fun h => hd h.symm) hn⟩
        · rintro ⟨h, hn⟩
          obtain ⟨rfl, rfl⟩ := List.cons.inj h
          exact ⟨(before, after), ih.mpr ⟨rfl, fun hm => hn (List.mem_cons_of_mem _ hm)⟩, rfl⟩

end AssistedShell.Text
