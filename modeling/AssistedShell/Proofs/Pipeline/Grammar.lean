import AssistedShell.Proofs.Pipeline.Segment
import Mathlib.Data.List.Basic

/-! The grammar of a line. A mark at the end sends the pipeline to the
background, pipes separate its stages, and the first segment that is not well
formed makes the line faulty. Reading a line decides this grammar: it gives the
pipeline that the tokens denote, or their fault. -/

namespace AssistedShell.Pipeline

/-- Whether a line ends with the background mark. -/
def marked (ts : List Token) : Bool := ts.getLast? == some .background

/-- The tokens without the background mark at the end. -/
def body (ts : List Token) : List Token := if marked ts then ts.dropLast else ts

/-- Where a stage with an input reads, and the lines that are left. -/
inductive Reads : Option PendingInput → LineSource → Option InputSource → LineSource → Prop where
  | nothing {source} : Reads none source none source
  | file {path source} : Reads (some (.file path)) source (some (.file path)) source
  | hereDoc {delimiter source} : Reads (some (.delimiter delimiter)) source
      (some (.hereDoc (readBody delimiter source).value)) (readBody delimiter source).rest

/-- The stages that segments denote: one each, in their order. Their here-documents take the
lines of a source one after another. -/
inductive Denotes : List (List Token) → LineSource → List Stage → LineSource → Prop where
  | nil {source} : Denotes [] source [] source
  | cons {seg segs stage stages source source' rest} :
      stage.words = ownWords seg → Reads (denoted seg).input source stage.input source' →
      stage.output = (denoted seg).output → Denotes segs source' stages rest →
      Denotes (seg :: segs) source (stage :: stages) rest

/-- The reading of a line. -/
inductive Reading (source : LineSource) :
    List Token → Except SyntaxFault (Option Pipeline) → Prop where
  | empty : Reading source [] (.ok none)
  | misplaced {ts} : ts ≠ [] → .background ∈ body ts →
      Reading source ts (.error .misplacedBackground)
  | faulty {ts before seg after f} : ts ≠ [] → .background ∉ body ts →
      (body ts).splitOn .pipe = before ++ seg :: after → (∀ s ∈ before, WellFormed s) →
      Faulty seg f → Reading source ts (.error f)
  | formed {ts stages rest} : ts ≠ [] → .background ∉ body ts →
      (∀ seg ∈ (body ts).splitOn .pipe, WellFormed seg) →
      Denotes ((body ts).splitOn .pipe) source stages rest →
      Reading source ts (.ok (some ⟨stages, marked ts⟩))

/-! ### Segments -/

theorem segments?_eq_none {ts : List Token} : segments? ts = none ↔ .background ∈ ts := by
  fun_induction segments? ts with
  | case1 => simp
  | case2 => simp
  | case3 r ih => simp [ih]
  | case4 w r ih => simp [ih]
  | case5 op r ih => simp [ih]

theorem map_consItem (i : Item) {ts : List Token} {ss : List (List Item)}
    (h : ss.map (List.map Item.token) = ts.splitOn .pipe) :
    (consItem i ss).map (List.map Item.token) = (i.token :: ts).splitOn .pipe := by
  have hi : (i.token == .pipe) = false := by
    cases i with
    | _ => rfl
  rw [List.splitOn_cons_eq_if_modifyHead, hi, ← h]
  cases ss with
  | nil => exact absurd h.symm (List.splitOn_ne_nil _ _)
  | cons s ss => rfl

/-- Without background marks, the segments of the items are those of the tokens. -/
theorem map_segments {ts : List Token} {ss : List (List Item)} (h : segments? ts = some ss) :
    ss.map (List.map Item.token) = ts.splitOn .pipe := by
  fun_induction segments? ts generalizing ss with
  | case1 =>
    obtain rfl := Option.some.inj h
    rfl
  | case2 => cases h
  | case3 r ih =>
    obtain ⟨ss, hr, rfl⟩ := Option.map_eq_some_iff.mp h
    rw [List.splitOn_cons_eq_if_modifyHead, ← ih hr]
    rfl
  | case4 w r ih =>
    obtain ⟨ss, hr, rfl⟩ := Option.map_eq_some_iff.mp h
    exact map_consItem (.word w) (ih hr)
  | case5 op r ih =>
    obtain ⟨ss, hr, rfl⟩ := Option.map_eq_some_iff.mp h
    exact map_consItem (.redirect op) (ih hr)

/-! ### Drafts -/

/-- The segments of items. -/
def Item.segments (ss : List (List Item)) : List (List Token) := ss.map (List.map Item.token)

/-- Segments are all well formed, or there is a first that is not. -/
theorem wellFormed_or_faulty (ss : List (List Item)) :
    (∀ seg ∈ Item.segments ss, WellFormed seg) ∨
      ∃ before seg after f, Item.segments ss = before ++ seg :: after ∧
        (∀ s ∈ before, WellFormed s) ∧ Faulty seg f := by
  induction ss with
  | nil => exact .inl nofun
  | cons s ss ih =>
    rw [Item.segments, List.map_cons]
    rcases hs : draft s with f | d
    · exact .inr ⟨[], _, _, f, rfl, nofun, draft_eq_error_iff.mp hs⟩
    · have hw := (draft_eq_ok_iff.mp hs).1
      rcases ih with h | ⟨before, seg, after, f, he, hb, hf⟩
      · exact .inl (List.forall_mem_cons.mpr ⟨hw, h⟩)
      · exact .inr ⟨_ :: before, seg, after, f, congrArg _ he,
          List.forall_mem_cons.mpr ⟨hw, hb⟩, hf⟩

theorem mapM_draft_of_wellFormed {ss : List (List Item)}
    (h : ∀ seg ∈ Item.segments ss, WellFormed seg) :
    ss.mapM draft = .ok ((Item.segments ss).map denoted) := by
  induction ss with
  | nil => rfl
  | cons s ss ih =>
    obtain ⟨hw, hr⟩ := List.forall_mem_cons.mp h
    rw [List.mapM_cons, draft_eq_ok_iff.mpr ⟨hw, rfl⟩, ih hr]
    rfl

theorem mapM_draft_of_faulty {ss : List (List Item)} {before after : List (List Token)}
    {seg : List Token} {f : SyntaxFault} (he : Item.segments ss = before ++ seg :: after)
    (hb : ∀ s ∈ before, WellFormed s) (hf : Faulty seg f) : ss.mapM draft = .error f := by
  induction before generalizing ss with
  | nil =>
    obtain ⟨s, ss, rfl, rfl, -⟩ := List.map_eq_cons_iff.mp he
    rw [List.mapM_cons, draft_eq_error_iff.mpr hf]
    rfl
  | cons b before ih =>
    obtain ⟨s, ss, rfl, rfl, hr⟩ := List.map_eq_cons_iff.mp he
    obtain ⟨hw, hb⟩ := List.forall_mem_cons.mp hb
    rw [List.mapM_cons, draft_eq_ok_iff.mpr ⟨hw, rfl⟩, ih hr hb]
    rfl

/-! ### Stages -/

theorem reads_complete (i : Option PendingInput) (source : LineSource) :
    Reads i source (PendingInput.complete i source).value (PendingInput.complete i source).rest := by
  rcases i with _ | path | delimiter
  · exact .nothing
  · exact .file
  · exact .hereDoc

theorem Reads.eq_complete {i : Option PendingInput} {source rest : LineSource}
    {input : Option InputSource} (h : Reads i source input rest) :
    (PendingInput.complete i source).value = input ∧
      (PendingInput.complete i source).rest = rest := by
  cases h with
  | _ => exact ⟨rfl, rfl⟩

theorem denotes_complete {segs : List (List Token)} (hw : ∀ seg ∈ segs, WellFormed seg)
    (source : LineSource) :
    Denotes segs source (complete (segs.map denoted) source).value
      (complete (segs.map denoted) source).rest := by
  induction segs generalizing source with
  | nil => exact .nil
  | cons seg segs ih =>
    obtain ⟨hs, hr⟩ := List.forall_mem_cons.mp hw
    rw [List.map_cons, complete]
    rcases hn : (denoted seg).words with _ | ⟨name, arguments⟩
    · exact absurd hn hs.ne_nil
    · exact .cons hn.symm (reads_complete _ _) rfl (ih hr _)

theorem Denotes.eq_complete {segs : List (List Token)} {source rest : LineSource}
    {stages : List Stage} (h : Denotes segs source stages rest) :
    (complete (segs.map denoted) source).value = stages ∧
      (complete (segs.map denoted) source).rest = rest := by
  induction h with
  | nil => exact ⟨rfl, rfl⟩
  | @cons seg segs stage stages source source' rest hw hi ho _ ih =>
    have hn : (denoted seg).words = stage.name :: stage.arguments := hw.symm
    obtain ⟨hv, rfl⟩ := hi.eq_complete
    rw [List.map_cons, complete, hn]
    dsimp only
    rw [hv, ← ho, ih.1]
    exact ⟨rfl, ih.2⟩

/-! ### Lines -/

variable {ts : List Token} {source : LineSource}

theorem drafts_eq (ts : List Token) :
    drafts ts =
      match segments? (body ts) with
      | none => .error .misplacedBackground
      | some ss =>
        match ss.mapM draft with
        | .error f => .error f
        | .ok ds => .ok (ds, marked ts) := rfl

theorem ofTokens_of_error (hn : ts ≠ []) {f : SyntaxFault} (h : drafts ts = .error f) :
    (ofTokens ts source).value = .error f := by
  rw [ofTokens, if_neg (mt List.isEmpty_iff.mp hn), h]

theorem ofTokens_of_ok (hn : ts ≠ []) {ds : List Draft} {background : Bool}
    (h : drafts ts = .ok (ds, background)) :
    (ofTokens ts source).value = .ok (some ⟨(complete ds source).value, background⟩) := by
  rw [ofTokens, if_neg (mt List.isEmpty_iff.mp hn), h]

theorem exists_segments (hm : .background ∉ body ts) :
    ∃ ss, segments? (body ts) = some ss ∧ Item.segments ss = (body ts).splitOn .pipe := by
  obtain ⟨ss, hs⟩ := Option.ne_none_iff_exists'.mp (mt segments?_eq_none.mp hm)
  exact ⟨ss, hs, map_segments hs⟩

/-- A line has a reading. -/
theorem exists_reading (ts : List Token) (source : LineSource) : ∃ r, Reading source ts r := by
  by_cases hn : ts = []
  · subst hn
    exact ⟨_, .empty⟩
  by_cases hm : .background ∈ body ts
  · exact ⟨_, .misplaced hn hm⟩
  obtain ⟨ss, -, hs⟩ := exists_segments hm
  rcases wellFormed_or_faulty ss with hw | ⟨before, seg, after, f, he, hb, hf⟩
  · rw [hs] at hw
    exact ⟨_, .formed hn hm hw (denotes_complete hw source)⟩
  · exact ⟨_, .faulty hn hm (hs.symm.trans he) hb hf⟩

theorem Reading.value_eq {r : Except SyntaxFault (Option Pipeline)} (h : Reading source ts r) :
    (ofTokens ts source).value = r := by
  cases h with
  | empty => rfl
  | misplaced hn hm =>
    apply ofTokens_of_error hn
    rw [drafts_eq, segments?_eq_none.mpr hm]
  | faulty hn hm he hb hf =>
    obtain ⟨ss, hs, hsplit⟩ := exists_segments hm
    apply ofTokens_of_error hn
    rw [drafts_eq, hs]
    dsimp only
    rw [mapM_draft_of_faulty (hsplit.trans he) hb hf]
  | @formed _ stages rest hn hm hw hd =>
    obtain ⟨ss, hs, hsplit⟩ := exists_segments hm
    have hds : drafts ts = .ok (((body ts).splitOn .pipe).map denoted, marked ts) := by
      rw [drafts_eq, hs]
      dsimp only
      rw [mapM_draft_of_wellFormed (hsplit ▸ hw), hsplit]
    rw [ofTokens_of_ok hn hds, hd.eq_complete.1]

/-- Reading tokens gives their reading and nothing else, whatever lines stand ready. Only the empty
line has none. -/
theorem ofTokens_value_iff (ts : List Token) (source : LineSource) :
    (∀ r, (ofTokens ts source).value = r ↔ Reading source ts r) ∧
      ((ofTokens ts source).value = .ok none ↔ ts = []) := by
  have hr : Reading source ts (ofTokens ts source).value := by
    obtain ⟨r, hr⟩ := exists_reading ts source
    rw [hr.value_eq]
    exact hr
  refine ⟨?_, ?_, ?_⟩
  · intro r
    constructor
    · rintro rfl
      exact hr
    · exact Reading.value_eq
  · intro hv
    rw [hv] at hr
    cases hr with
    | empty => rfl
  · rintro rfl
    rfl

end AssistedShell.Pipeline
