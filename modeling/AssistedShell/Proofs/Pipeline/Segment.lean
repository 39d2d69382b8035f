import AssistedShell.Pipeline.Reading

/-! The grammar of one stage. A segment is what stands between two pipes: words
and redirections, each of which takes the word right after it. What a segment
denotes is said by positions, without reading it from left to right, and the
reader of drafts is shown to accept the well-formed segments, with the draft
that they denote, and to give the fault of any other. -/

namespace AssistedShell.Pipeline

/-- A redirection without a word after it, at a position of a segment. -/
def Orphan (seg : List Token) (i : Nat) (op : Redirect) : Prop :=
  seg[i]? = some (.redirect op) ∧ ∀ w, seg[i + 1]? ≠ some (.word w)

/-- An orphan with none before it. -/
def FirstOrphan (seg : List Token) (i : Nat) (op : Redirect) : Prop :=
  Orphan seg i op ∧ ∀ j < i, ∀ op', ¬ Orphan seg j op'

/-- The word of a token, unless a redirection before it takes it. -/
def ownWord? : Option Token → Token → Option String
  | some (.redirect _), _ => none
  | _, .word w => some w
  | _, _ => none

/-- The own words of a segment that comes after a token. -/
def ownWordsAfter (before : Option Token) (seg : List Token) : List String :=
  ((before :: seg.map some).zip seg).filterMap fun p => ownWord? p.1 p.2

/-- The words of a segment that no redirection takes. -/
def ownWords (seg : List Token) : List String := ownWordsAfter none seg

/-- A redirection and the word it takes. -/
def redirection? : Token → Token → Option (Redirect × String)
  | .redirect op, .word w => some (op, w)
  | _, _ => none

/-- The redirections of a segment with the words they take. -/
def redirections (seg : List Token) : List (Redirect × String) :=
  (seg.zip seg.tail).filterMap fun p => redirection? p.1 p.2

/-- The input that a redirection gives. -/
def inputOf? : Redirect × String → Option PendingInput
  | (.input, path) => some (.file path)
  | (.hereDoc, delimiter) => some (.delimiter delimiter)
  | _ => none

/-- The output that a redirection gives. -/
def outputOf? : Redirect × String → Option OutputTarget
  | (.output, path) => some ⟨path, false⟩
  | (.append, path) => some ⟨path, true⟩
  | _ => none

/-- What a segment denotes: its own words, its last input and its last output. -/
def denoted (seg : List Token) : Draft where
  words := ownWords seg
  input := ((redirections seg).filterMap inputOf?).getLast?
  output := ((redirections seg).filterMap outputOf?).getLast?

/-- A segment in which every redirection has its word, and that has a word of its own. -/
structure WellFormed (seg : List Token) : Prop where
  complete : ∀ i op, ¬ Orphan seg i op
  ne_nil : ownWords seg ≠ []

/-- The fault of a segment. -/
inductive Faulty (seg : List Token) : SyntaxFault → Prop where
  | target {i op} : FirstOrphan seg i op → op ≠ .hereDoc → Faulty seg (.missingTarget op)
  | delimiter {i} : FirstOrphan seg i .hereDoc → Faulty seg .missingDelimiter
  | empty : (∀ i op, ¬ Orphan seg i op) → ownWords seg = [] → Faulty seg .emptyCommand

/-! ### Positions -/

section
variable {seg : List Token} {w : String} {op : Redirect}

theorem ownWordsAfter_cons (before : Option Token) (t : Token) :
    ownWordsAfter before (t :: seg) =
      (ownWord? before t).toList ++ ownWordsAfter (some t) seg := by
  rw [ownWordsAfter, List.map_cons, List.zip_cons_cons, List.filterMap_cons, ownWordsAfter]
  cases ownWord? before t with
  | none => rfl
  | some w => rfl

theorem ownWordsAfter_word : ownWordsAfter (some (.word w)) seg = ownWords seg := by
  cases seg with
  | nil => rfl
  | cons t seg =>
    rw [ownWords, ownWordsAfter_cons, ownWordsAfter_cons]
    cases t with
    | _ => rfl

@[simp] theorem ownWords_word : ownWords (.word w :: seg) = w :: ownWords seg := by
  rw [ownWords, ownWordsAfter_cons, ownWordsAfter_word]
  rfl

@[simp] theorem ownWords_redirect :
    ownWords (.redirect op :: .word w :: seg) = ownWords seg := by
  rw [ownWords, ownWordsAfter_cons, ownWordsAfter_cons, ownWordsAfter_word]
  rfl

@[simp] theorem redirections_word : redirections (.word w :: seg) = redirections seg := by
  cases seg with
  | nil => rfl
  | cons t seg => rfl

@[simp] theorem redirections_redirect :
    redirections (.redirect op :: .word w :: seg) = (op, w) :: redirections seg := by
  have h : redirections (.redirect op :: .word w :: seg) =
      (op, w) :: redirections (.word w :: seg) := rfl
  rw [h, redirections_word]

theorem not_orphan_word (op' : Redirect) : ¬ Orphan (.word w :: seg) 0 op' := by
  rintro ⟨h, -⟩
  cases h

theorem not_orphan_redirect (op' : Redirect) :
    ¬ Orphan (.redirect op :: .word w :: seg) 0 op' := by
  rintro ⟨-, h⟩
  exact h w rfl

theorem complete_cons {t : Token} (ht : ∀ op', ¬ Orphan (t :: seg) 0 op')
    (hc : ∀ i op', ¬ Orphan seg i op') : ∀ i op', ¬ Orphan (t :: seg) i op' := by
  intro i op'
  cases i with
  | zero => exact ht op'
  | succ i => exact hc i op'

theorem FirstOrphan.cons {t : Token} {i : Nat} (ht : ∀ op', ¬ Orphan (t :: seg) 0 op')
    (ho : FirstOrphan seg i op) : FirstOrphan (t :: seg) (i + 1) op := by
  refine ⟨ho.1, ?_⟩
  intro j hj op'
  cases j with
  | zero => exact ht op'
  | succ j => exact ho.2 j (Nat.lt_of_succ_lt_succ hj) op'

/-- The first orphan is one redirection. -/
theorem FirstOrphan.unique {i j : Nat} {op' : Redirect} (h : FirstOrphan seg i op)
    (h' : FirstOrphan seg j op') : op = op' := by
  rcases Nat.lt_trichotomy i j with hij | rfl | hij
  · exact absurd h.1 (h'.2 i hij op)
  · exact Token.redirect.inj (Option.some.inj (h.1.1.symm.trans h'.1.1))
  · exact absurd h'.1 (h.2 j hij op')

end

/-! ### Reading a draft -/

/-- The token that an item stands for. -/
def Item.token : Item → Token
  | .word w => .word w
  | .redirect op => .redirect op

/-- A draft with what a segment denotes added to it. -/
def Draft.extend (d : Draft) (seg : List Token) : Draft where
  words := d.words ++ ownWords seg
  input := (denoted seg).input.or d.input
  output := (denoted seg).output.or d.output

theorem extend_empty (seg : List Token) : ({} : Draft).extend seg = denoted seg := by
  simp [Draft.extend, denoted]

theorem extend_word (d : Draft) (w : String) (seg : List Token) :
    { d with words := d.words ++ [w] }.extend seg = d.extend (.word w :: seg) := by
  simp [Draft.extend, denoted]

theorem getLast?_cons_or {α : Type} (x : α) (xs : List α) (o : Option α) :
    (x :: xs).getLast?.or o = xs.getLast?.or (some x) := by
  rw [List.getLast?_cons]
  cases xs.getLast? with
  | none => rfl
  | some y => rfl

/-- A later redirection replaces an earlier one. -/
theorem extend_redirect (d : Draft) (op : Redirect) (w : String) (seg : List Token) :
    (d.redirect op w).extend seg = d.extend (.redirect op :: .word w :: seg) := by
  cases op with
  | _ =>
    simp [Draft.extend, Draft.redirect, denoted, inputOf?, outputOf?, getLast?_cons_or]

/-- Either every redirection has its word and the whole segment is read, or the first that lacks
it is the fault. -/
theorem read_spec (d : Draft) (items : List Item) :
    (d.read items = .ok (d.extend (items.map Item.token)) ∧
        ∀ i op, ¬ Orphan (items.map Item.token) i op) ∨
      ∃ i op, FirstOrphan (items.map Item.token) i op ∧ d.read items = .error (missing op) := by
  fun_induction Draft.read d items with
  | case1 d =>
    refine .inl ⟨?_, ?_⟩
    · simp [Draft.extend, denoted, ownWords, ownWordsAfter, redirections]
    · rintro i op ⟨h, -⟩
      cases h
  | case2 d w items ih =>
    rw [List.map_cons, Item.token]
    rcases ih with ⟨hr, hc⟩ | ⟨i, op, ho, hr⟩
    · exact .inl ⟨by rw [hr, extend_word], complete_cons not_orphan_word hc⟩
    · exact .inr ⟨i + 1, op, ho.cons not_orphan_word, hr⟩
  | case3 d op w items ih =>
    rw [List.map_cons, List.map_cons, Item.token, Item.token]
    rcases ih with ⟨hr, hc⟩ | ⟨i, op', ho, hr⟩
    · exact .inl ⟨by rw [hr, extend_redirect],
        complete_cons not_orphan_redirect (complete_cons not_orphan_word hc)⟩
    · exact .inr ⟨i + 2, op', (ho.cons not_orphan_word).cons not_orphan_redirect, hr⟩
  | case4 d op items hw =>
    refine .inr ⟨0, op, ⟨⟨rfl, ?_⟩, nofun⟩, rfl⟩
    intro w h
    cases items with
    | nil => cases h
    | cons item items =>
      cases item with
      | word w' => exact hw w' items rfl
      | redirect op' => cases h

variable {items : List Item}

theorem draft_eq_ok_iff {d : Draft} :
    draft items = .ok d ↔
      WellFormed (items.map Item.token) ∧ denoted (items.map Item.token) = d := by
  rw [draft]
  rcases read_spec {} items with ⟨hr, hc⟩ | ⟨i, op, ho, hr⟩
  · rw [hr, extend_empty]
    dsimp only
    split
    · next he =>
      rw [List.isEmpty_iff] at he
      exact ⟨nofun, fun h => absurd he h.1.ne_nil⟩
    · next he =>
      rw [List.isEmpty_iff] at he
      exact ⟨fun h => ⟨⟨hc, he⟩, Except.ok.inj h⟩, fun h => congrArg _ h.2⟩
  · rw [hr]
    exact ⟨nofun, fun h => absurd ho.1 (h.1.complete i op)⟩

theorem draft_eq_error_iff {f : SyntaxFault} :
    draft items = .error f ↔ Faulty (items.map Item.token) f := by
  rw [draft]
  rcases read_spec {} items with ⟨hr, hc⟩ | ⟨i, op, ho, hr⟩
  · rw [hr, extend_empty]
    dsimp only
    split
    · next he =>
      rw [List.isEmpty_iff] at he
      constructor
      · rintro ⟨⟩
        exact .empty hc he
      · intro hf
        cases hf with
        | target ho | delimiter ho => exact absurd ho.1 (hc _ _)
        | empty => rfl
    · next he =>
      rw [List.isEmpty_iff] at he
      refine ⟨nofun, ?_⟩
      intro hf
      cases hf with
      | target ho | delimiter ho => exact absurd ho.1 (hc _ _)
      | empty _ hn => exact absurd hn he
  · rw [hr]
    constructor
    · rintro ⟨⟩
      cases op with
      | hereDoc => exact .delimiter ho
      | _ => exact .target ho nofun
    · intro hf
      cases hf with
      | target ho' hne =>
        obtain rfl := ho.unique ho'
        cases op with
        | hereDoc => exact absurd rfl hne
        | _ => rfl
      | delimiter ho' =>
        obtain rfl := ho.unique ho'
        rfl
      | empty hc => exact absurd ho.1 (hc i op)

end AssistedShell.Pipeline
