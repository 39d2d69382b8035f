import AssistedShell.Path

/-! What paths joined to one another say step by step. A relative path goes on
where the base ends. -/

namespace AssistedShell.Path

/-! ### Parts -/

theorem split_ne_nil (p : List Char) : split p ≠ [] := by
  cases p with
  | nil => exact nofun
  | cons c p =>
    rw [split]
    split
    · exact nofun
    · split <;> exact nofun

theorem split_cons_slash (p : List Char) : split ('/' :: p) = [] :: split p := by
  obtain ⟨s, ss, hs⟩ := List.exists_cons_of_ne_nil (split_ne_nil p)
  rw [split, hs]
  rfl

theorem split_cons {c : Char} (hc : c ≠ '/') {p s : List Char} {ss : List (List Char)}
    (hp : split p = s :: ss) : split (c :: p) = (c :: s) :: ss := by
  rw [split, hp]
  exact if_neg hc

theorem split_append (a b : List Char) : split (a ++ '/' :: b) = split a ++ split b := by
  induction a with
  | nil => exact split_cons_slash b
  | cons c a ih =>
    by_cases hc : c = '/'
    · rw [hc, List.cons_append, split_cons_slash, split_cons_slash, ih, List.cons_append]
    · obtain ⟨s, ss, hs⟩ := List.exists_cons_of_ne_nil (split_ne_nil a)
      rw [hs, List.cons_append] at ih
      rw [List.cons_append, split_cons hc ih, split_cons hc hs, List.cons_append]

theorem split_part {s : List Char} (hs : '/' ∉ s) : split s = [s] := by
  induction s with
  | nil => rfl
  | cons c s ih =>
    rw [List.mem_cons, not_or] at hs
    exact split_cons (Ne.symm hs.1) (ih hs.2)

theorem not_mem_of_mem_split {p s : List Char} (h : s ∈ split p) : '/' ∉ s := by
  induction p generalizing s with
  | nil => simp_all [split]
  | cons c p ih =>
    by_cases hc : c = '/'
    · rw [hc, split_cons_slash, List.mem_cons] at h
      rcases h with rfl | h
      · exact List.not_mem_nil
      · exact ih h
    · obtain ⟨t, ts, ht⟩ := List.exists_cons_of_ne_nil (split_ne_nil p)
      rw [split_cons hc ht, List.mem_cons] at h
      rcases h with rfl | h
      · rw [List.mem_cons, not_or]
        exact ⟨Ne.symm hc, ih (ht ▸ List.mem_cons_self)⟩
      · exact ih (ht ▸ List.mem_cons_of_mem _ h)

/-! ### Components -/

theorem inner_append (a b : List (List Char)) : inner (a ++ b) = inner a ++ inner b := by
  rw [inner, List.filter_append, List.map_append, ← inner, ← inner]

/-- A relative path goes on where the base ends. -/
theorem inner_split_join (base : List Char) {p : List Char} (hp : isAbsolute p = false) :
    inner (split (join base p)) = inner (split base) ++ inner (split p) := by
  rw [join, hp, Bool.false_or]
  split
  next hb =>
    rw [eq_of_beq hb]
    rfl
  next =>
    split
    next hl =>
      obtain ⟨base, rfl⟩ := List.getLast?_eq_some_iff.mp (eq_of_beq hl)
      rw [List.append_assoc, List.singleton_append, split_append, split_append, inner_append,
        inner_append, show inner (split []) = [] from rfl, List.append_nil]
    next => rw [split_append, inner_append]

theorem isAbsolute_join (base p : List Char) :
    isAbsolute (join base p) = (isAbsolute base || isAbsolute p) := by
  rw [join]
  rcases hp : isAbsolute p with _ | _
  · cases base with
    | nil => exact hp
    | cons c base =>
      split
      · contradiction
      · split <;> simp [isAbsolute]
  · simp [hp]

/-- Below an absolute base a relative path says what it says itself. -/
theorem components_join {base p : List Char} (hb : isAbsolute base) (hp : isAbsolute p = false) :
    components (join base p) = components base ++ inner (split p) := by
  rw [components, isAbsolute_join, hb, Bool.true_or, if_pos rfl, inner_split_join base hp, components,
    if_pos hb, List.cons_append]

end AssistedShell.Path
