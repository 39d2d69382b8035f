import AssistedShell.Proofs.Pipeline.Grammar

/-! The reading of a line with its assumptions checked. A segment is read on the
assumption that no pipe is in it, and a stage takes its name on the assumption
that it has words. Here a reading ends without a result where one of these does
not hold, and it is shown that none ends so. -/

namespace AssistedShell.Pipeline

/-- Adds the tokens of a segment to a draft; no result if a pipe is among them. -/
def Draft.readChecked : Draft → List Token → Option (Except SyntaxFault Draft)
  | d, [] => some (.ok d)
  | d, .word w :: r => Draft.readChecked { d with words := d.words ++ [w] } r
  | d, .redirect op :: .word w :: r => Draft.readChecked (d.redirect op w) r
  | _, .redirect op :: _ => some (.error (missing op))
  | _, .pipe :: _ => none
  | _, .background :: _ => some (.error .misplacedBackground)

/-- The draft of a segment, which must have a word of its own. -/
def draftChecked (seg : List Token) : Option (Except SyntaxFault Draft) :=
  (Draft.readChecked {} seg).map fun
    | .error f => .error f
    | .ok d => if d.words.isEmpty then .error .emptyCommand else .ok d

/-- The drafts of segments in turn; the first fault decides. -/
def draftsChecked : List (List Token) → Option (Except SyntaxFault (List Draft))
  | [] => some (.ok [])
  | seg :: segs =>
    match draftChecked seg with
    | none => none
    | some (.error f) => some (.error f)
    | some (.ok d) => (draftsChecked segs).map (Except.map (d :: ·))

/-- The stages of drafts, each named by its first word; no result if one has none. -/
def completeChecked : List Draft → LineSource → Option (Taken (List Stage))
  | [], source => some ⟨[], source, 0⟩
  | d :: ds, source =>
    let i := PendingInput.complete d.input source
    match d.words[0]? with
    | none => none
    | some name =>
      (completeChecked ds i.rest).map fun t =>
        ⟨⟨name, d.words.tail, i.value, d.output⟩ :: t.value, t.rest, i.requests + t.requests⟩

/-- Reads a pipeline from its tokens. -/
def ofTokensChecked (tokens : List Token) (source : LineSource) :
    Option (Taken (Except SyntaxFault (Option Pipeline))) :=
  if tokens.isEmpty then some ⟨.ok none, source, 0⟩
  else if .background ∈ body tokens then some ⟨.error .misplacedBackground, source, 0⟩
  else
    match draftsChecked ((body tokens).splitOn .pipe) with
    | none => none
    | some (.error f) => some ⟨.error f, source, 0⟩
    | some (.ok ds) =>
      (completeChecked ds source).map fun t =>
        ⟨.ok (some ⟨t.value, marked tokens⟩), t.rest, t.requests⟩

/-! ### Segments hold no pipe -/

theorem readChecked_eq (d : Draft) (items : List Item) :
    d.readChecked (items.map Item.token) = some (d.read items) := by
  fun_induction Draft.read d items with
  | case1 d => rfl
  | case2 d w items ih => exact ih
  | case3 d op w items ih => exact ih
  | case4 d op items hw =>
    cases items with
    | nil => rfl
    | cons item items =>
      cases item with
      | word w => exact absurd rfl (hw w items)
      | redirect op' => rfl

theorem draftChecked_eq (items : List Item) :
    draftChecked (items.map Item.token) = some (draft items) := by
  rw [draftChecked, readChecked_eq, draft]
  cases Draft.read {} items with
  | error f => rfl
  | ok d => rfl

theorem draftsChecked_eq (ss : List (List Item)) :
    draftsChecked (Item.segments ss) = some (ss.mapM draft) := by
  induction ss with
  | nil => rfl
  | cons items ss ih =>
    rw [Item.segments, List.map_cons, draftsChecked, draftChecked_eq, List.mapM_cons]
    cases draft items with
    | error f => rfl
    | ok d =>
      change (draftsChecked (Item.segments ss)).map _ = _
      rw [ih]
      cases ss.mapM draft with
      | error f => rfl
      | ok ds => rfl

/-! ### Drafts hold a word -/

theorem words_ne_nil_of_mapM {ss : List (List Item)} {ds : List Draft}
    (h : ss.mapM draft = .ok ds) : ∀ d ∈ ds, d.words ≠ [] := by
  rcases wellFormed_or_faulty ss with hw | ⟨before, seg, after, f, he, hb, hf⟩
  · rw [mapM_draft_of_wellFormed hw] at h
    obtain rfl := Except.ok.inj h
    intro d hd
    obtain ⟨seg, hseg, rfl⟩ := List.mem_map.mp hd
    exact (hw seg hseg).ne_nil
  · rw [mapM_draft_of_faulty he hb hf] at h
    cases h

theorem completeChecked_eq {ds : List Draft} (hw : ∀ d ∈ ds, d.words ≠ []) (source : LineSource) :
    completeChecked ds source = some (complete ds source) := by
  induction ds generalizing source with
  | nil => rfl
  | cons d ds ih =>
    obtain ⟨hd, hds⟩ := List.forall_mem_cons.mp hw
    rw [completeChecked, complete]
    rcases hn : d.words with _ | ⟨name, arguments⟩
    · exact absurd hn hd
    · dsimp only [List.getElem?_cons_zero]
      rw [ih hds]
      rfl

/-! ### Lines -/

/-- Every line is read to its end. -/
theorem ofTokensChecked_eq (tokens : List Token) (source : LineSource) :
    ofTokensChecked tokens source = some (ofTokens tokens source) := by
  rw [ofTokensChecked, ofTokens, drafts_eq]
  split
  · rfl
  by_cases hm : .background ∈ body tokens
  · rw [if_pos hm, segments?_eq_none.mpr hm]
  obtain ⟨ss, hs, hsplit⟩ := exists_segments hm
  rw [if_neg hm, hs, ← hsplit, draftsChecked_eq]
  dsimp only
  cases hd : ss.mapM draft with
  | error f => rfl
  | ok ds =>
    dsimp only
    rw [completeChecked_eq (words_ne_nil_of_mapM hd)]
    rfl

end AssistedShell.Pipeline
