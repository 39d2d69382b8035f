import AssistedShell.Proofs.Path.Joining
import Mathlib.Data.List.DropRight

/-! What remains of a path below another one. Something remains exactly if the
components of the other path come first, however either is spelled, and the other
path with the rest joined to it says what the whole path says. -/

namespace AssistedShell.Path

/-! ### Parts put together -/

theorem glue_cons_cons (s t : List Char) (parts : List (List Char)) :
    glue (s :: t :: parts) = s ++ '/' :: glue (t :: parts) := rfl

theorem glue_cons_append (c : Char) (s : List Char) (parts : List (List Char)) :
    glue ((c :: s) :: parts) = c :: glue (s :: parts) := by
  cases parts <;> rfl

/-- The parts of a path make it up. -/
theorem glue_split (p : List Char) : glue (split p) = p := by
  induction p with
  | nil => rfl
  | cons c p ih =>
    obtain ⟨s, parts, hp⟩ := List.exists_cons_of_ne_nil (split_ne_nil p)
    by_cases hc : c = '/'
    · rw [hc, split_cons_slash]
      rw [hp] at ih ⊢
      rw [glue_cons_cons, ih, List.nil_append]
    · rw [split_cons hc hp, glue_cons_append, ← hp, ih]

theorem split_glue {parts : List (List Char)} (hne : parts ≠ []) (h : ∀ s ∈ parts, '/' ∉ s) :
    split (glue parts) = parts := by
  induction parts with
  | nil => exact absurd rfl hne
  | cons s parts ih =>
    obtain ⟨hs, hparts⟩ := List.forall_mem_cons.mp h
    cases parts with
    | nil => exact split_part hs
    | cons t parts =>
      rw [glue_cons_cons, split_append, split_part hs, ih (List.cons_ne_nil t parts) hparts]
      rfl

/-- Parts put together say what they say one by one. -/
theorem inner_split_glue {parts : List (List Char)} (hs : ∀ s ∈ parts, '/' ∉ s) :
    inner (split (glue parts)) = inner parts := by
  cases parts with
  | nil => rfl
  | cons s parts => rw [split_glue (List.cons_ne_nil s parts) hs]

theorem isAbsolute_glue {s : List Char} (parts : List (List Char)) (hne : s ≠ []) (hs : '/' ∉ s) :
    isAbsolute (glue (s :: parts)) = false := by
  obtain ⟨c, s, rfl⟩ := List.exists_cons_of_ne_nil hne
  have hc : c ≠ '/' := fun hc => hs (hc ▸ List.mem_cons_self)
  rw [glue_cons_append]
  simp [isAbsolute, hc]

/-! ### Idle parts at either end -/

theorem inner_reverse (parts : List (List Char)) : inner parts.reverse = (inner parts).reverse := by
  simp only [inner, List.filter_reverse, List.map_reverse]

theorem inner_dropWhile (parts : List (List Char)) :
    inner (parts.dropWhile isIdle) = inner parts := by
  induction parts with
  | nil => rfl
  | cons s parts ih =>
    by_cases hs : isIdle s
    · rw [List.dropWhile_cons_of_pos hs, ih]
      simp [inner, hs]
    · rw [List.dropWhile_cons_of_neg hs]

theorem inner_core (parts : List (List Char)) : inner (core parts) = inner parts := by
  rw [core, inner_reverse, inner_dropWhile, inner_reverse, List.reverse_reverse, inner_dropWhile]

theorem core_isPrefix (parts : List (List Char)) : core parts <+: parts.dropWhile isIdle :=
  List.rdropWhile_prefix isIdle _

theorem mem_of_mem_core {parts : List (List Char)} {s : List Char} (h : s ∈ core parts) :
    s ∈ parts :=
  (List.dropWhile_sublist isIdle).subset ((core_isPrefix parts).subset h)

/-- No idle part comes first. -/
theorem isIdle_of_core_eq_cons {parts rest : List (List Char)} {s : List Char}
    (h : core parts = s :: rest) : isIdle s = false := by
  obtain ⟨tail, ht⟩ := core_isPrefix parts
  rw [h, List.cons_append] at ht
  have hd := List.head?_dropWhile_not isIdle parts
  rw [← ht] at hd
  simpa using hd

theorem isAbsolute_glue_core {parts : List (List Char)} (hs : ∀ s ∈ parts, '/' ∉ s) :
    isAbsolute (glue (core parts)) = false := by
  rcases hc : core parts with _ | ⟨s, rest⟩
  · rfl
  · have hm : s ∈ core parts := by simp [hc]
    have hne : s ≠ [] := by
      rintro rfl
      cases isIdle_of_core_eq_cons hc
    exact isAbsolute_glue rest hne (hs s (mem_of_mem_core hm))

/-! ### What is left of parts -/

theorem inner_cons_of_isIdle {s : List Char} (hs : isIdle s) (parts : List (List Char)) :
    inner (s :: parts) = inner parts := by
  simp [inner, hs]

theorem inner_cons_of_not_isIdle {s : List Char} (hs : ¬ isIdle s) (parts : List (List Char)) :
    inner (s :: parts) = Component.ofPart s :: inner parts := by
  simp [inner, hs]

/-- Parts are left exactly if the components come first, and then they say the rest. -/
theorem stripInner_eq_some {cs : List Component} {parts rest : List (List Char)}
    (h : stripInner cs parts = some rest) :
    rest <:+ parts ∧ inner parts = cs ++ inner rest := by
  fun_induction stripInner cs parts with
  | case1 parts =>
    cases h
    exact ⟨List.suffix_rfl, rfl⟩
  | case2 => cases h
  | case3 c cs s parts hs ih =>
    obtain ⟨hr, hi⟩ := ih h
    exact ⟨hr.trans (List.suffix_cons s parts), by rw [inner_cons_of_isIdle hs, hi]⟩
  | case4 cs s parts hs ih =>
    obtain ⟨hr, hi⟩ := ih h
    refine ⟨hr.trans (List.suffix_cons s parts), ?_⟩
    rw [inner_cons_of_not_isIdle hs, hi, List.cons_append]
  | case5 => cases h

theorem isSome_stripInner_iff {cs : List Component} {parts : List (List Char)} :
    (stripInner cs parts).isSome ↔ cs <+: inner parts := by
  fun_induction stripInner cs parts with
  | case1 parts => simp
  | case2 c cs => simp [inner]
  | case3 c cs s parts hs ih => rw [ih, inner_cons_of_isIdle hs]
  | case4 cs s parts hs ih =>
    rw [ih, inner_cons_of_not_isIdle hs, List.cons_prefix_cons]
    simp
  | case5 c cs s parts hs hc =>
    rw [inner_cons_of_not_isIdle hs, List.cons_prefix_cons]
    simp [Ne.symm hc]

/-! ### Below a path -/

variable {p base rest : List Char}

theorem components_of_isAbsolute (hp : isAbsolute p) : components p = .root :: inner (split p) :=
  if_pos hp

theorem below?_of_isAbsolute (hb : isAbsolute base) (hp : isAbsolute p) :
    below? p base =
      (stripInner (inner (split base)) (split p)).map fun parts => glue (core parts) := by
  simp only [below?, components_of_isAbsolute hb, hp, if_true]

/-- How the other path is spelled does not matter. -/
theorem below?_congr {base' : List Char} (h : components base' = components base) :
    below? p base' = below? p base := by
  rw [below?, below?, h]

/-- Something remains exactly if the components of the other path come first. -/
theorem isSome_below?_iff (hb : isAbsolute base) (hp : isAbsolute p) :
    (below? p base).isSome ↔ components base <+: components p := by
  rw [below?_of_isAbsolute hb hp, Option.isSome_map, isSome_stripInner_iff,
    components_of_isAbsolute hb, components_of_isAbsolute hp, List.cons_prefix_cons]
  simp

/-- What remains is relative, and says what the other path leaves out. -/
theorem components_of_below? (hb : isAbsolute base) (hp : isAbsolute p)
    (h : below? p base = some rest) :
    isAbsolute rest = false ∧ components p = components base ++ inner (split rest) := by
  rw [below?_of_isAbsolute hb hp, Option.map_eq_some_iff] at h
  obtain ⟨parts, hs, rfl⟩ := h
  obtain ⟨hsuffix, hinner⟩ := stripInner_eq_some hs
  have hparts : ∀ s ∈ parts, '/' ∉ s := fun s hm => not_mem_of_mem_split (hsuffix.subset hm)
  refine ⟨isAbsolute_glue_core hparts, ?_⟩
  rw [inner_split_glue fun s hm => hparts s (mem_of_mem_core hm), inner_core,
    components_of_isAbsolute hb, components_of_isAbsolute hp, hinner, List.cons_append]

/-- The other path with the rest joined to it says what the whole path says. -/
theorem components_join_below? (hb : isAbsolute base) (hp : isAbsolute p)
    (h : below? p base = some rest) : components (join base rest) = components p := by
  obtain ⟨hr, hc⟩ := components_of_below? hb hp h
  rw [components_join hb hr, hc]

/-! ### Spellings of one path -/

theorem split_of_isAbsolute (hp : isAbsolute p) :
    ∃ tail, p = '/' :: tail ∧ split p = [] :: split tail := by
  cases p with
  | nil => cases hp
  | cons c tail =>
    have hc : c = '/' := by simpa [isAbsolute] using hp
    exact ⟨tail, by rw [hc], by rw [hc, split_cons_slash]⟩

/-- A slash doubled at the front says nothing. -/
theorem components_slash_cons (hp : isAbsolute p) : components ('/' :: p) = components p := by
  rw [components_of_isAbsolute hp, components_of_isAbsolute (p := '/' :: p) rfl, split_cons_slash,
    inner_cons_of_isIdle rfl]

/-- So does a slash at the end. -/
theorem components_concat_slash (hp : isAbsolute p) : components (p ++ ['/']) = components p := by
  have ha : isAbsolute (p ++ ['/']) := by
    obtain ⟨tail, rfl, -⟩ := split_of_isAbsolute hp
    rfl
  rw [components_of_isAbsolute hp, components_of_isAbsolute ha, split_append, inner_append]
  exact congrArg _ (List.append_nil _)

/-- A path as a system writes it: from the root, which is a slash, through names. An empty part
would be a doubled slash, or one at the end. -/
structure Canonical (p : List Char) : Prop where
  absolute : isAbsolute p
  names : p = ['/'] ∨ ∀ s ∈ (split p).tail, s ≠ [] ∧ s ≠ ['.'] ∧ s ≠ ['.', '.']

instance (p : List Char) : Decidable (Canonical p) :=
  decidable_of_iff (isAbsolute p ∧ (p = ['/'] ∨
      ∀ s ∈ (split p).tail, s ≠ [] ∧ s ≠ ['.'] ∧ s ≠ ['.', '.']))
    ⟨fun ⟨ha, hn⟩ => ⟨ha, hn⟩, fun ⟨ha, hn⟩ => ⟨ha, hn⟩⟩

theorem inner_of_names {parts : List (List Char)}
    (h : ∀ s ∈ parts, s ≠ [] ∧ s ≠ ['.'] ∧ s ≠ ['.', '.']) : inner parts = parts.map .name := by
  induction parts with
  | nil => rfl
  | cons s parts ih =>
    obtain ⟨⟨hne, hdot, hup⟩, hparts⟩ := List.forall_mem_cons.mp h
    have hs : ¬ isIdle s := by simp [isIdle, hne, hdot]
    rw [inner_cons_of_not_isIdle hs, ih hparts, Component.ofPart, if_neg hup, List.map_cons]

/-- Its parts can be told from its components. -/
theorem Canonical.components_eq (h : Canonical p) :
    ∃ names, components p = .root :: names.map .name ∧
      p = if names = [] then ['/'] else glue ([] :: names) := by
  rcases h.names with rfl | hn
  · exact ⟨[], rfl, rfl⟩
  · obtain ⟨tail, -, hs⟩ := split_of_isAbsolute h.absolute
    rw [hs, List.tail_cons] at hn
    refine ⟨split tail, ?_, ?_⟩
    · rw [components_of_isAbsolute h.absolute, hs, inner_cons_of_isIdle rfl, inner_of_names hn]
    · rw [if_neg (split_ne_nil tail), ← hs, glue_split]

/-- Two paths as a system writes them that say the same are the same. -/
theorem Canonical.eq_of_components_eq {q : List Char} (hp : Canonical p) (hq : Canonical q)
    (h : components p = components q) : p = q := by
  obtain ⟨ps, hps, hp⟩ := hp.components_eq
  obtain ⟨qs, hqs, hq⟩ := hq.components_eq
  have hinj : Function.Injective Component.name := fun _ _ => Component.name.inj
  have hn : ps.map Component.name = qs.map Component.name :=
    (List.cons.inj (hps.symm.trans (h.trans hqs))).2
  rw [hp, hq, List.map_injective_iff.mpr hinj hn]

end AssistedShell.Path

namespace AssistedShell

theorem joinPath_of_isAbsolute (base : String) {p : String} (hp : Path.isAbsolute p.toList) :
    joinPath base p = p := by
  rw [joinPath, Path.join, hp, Bool.true_or, if_pos rfl, String.ofList_toList]

end AssistedShell
