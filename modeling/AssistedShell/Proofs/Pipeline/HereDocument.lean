import AssistedShell.Proofs.Pipeline.Grammar
import Mathlib.Data.List.TakeWhile

/-! Here-documents. What a line takes from its source is said without reading
it: the lines up to the first one that is the delimiter, for each stage whose
last input is a here-document, one stage after another. Reading a line takes
that and no more, and a faulty line takes nothing. -/

namespace AssistedShell.Pipeline

/-! ### Line endings -/

/-- A character that a line may end with. -/
def isLineEnd (c : Char) : Bool := c == '\r' || c == '\n'

/-- Whether a text is a line without the ending characters at its end. -/
structure Stripped (line text : String) : Prop where
  split : ∃ ending, line.toList = text.toList ++ ending ∧ ∀ c ∈ ending, isLineEnd c = true
  bare : ∀ c, text.toList.getLast? = some c → isLineEnd c = false

theorem dropEndWhile_append {p : Char → Bool} {kept ending : List Char}
    (he : ∀ c ∈ ending, p c = true) (hk : ∀ c, kept.getLast? = some c → p c = false) :
    Text.dropEndWhile p (kept ++ ending) = kept := by
  rw [Text.dropEndWhile, List.reverse_append,
    List.dropWhile_append_of_pos fun c hc => he c (List.mem_reverse.mp hc)]
  rcases List.eq_nil_or_concat' kept with rfl | ⟨init, last, rfl⟩
  · rfl
  · have hlast := hk last List.getLast?_concat
    rw [List.reverse_concat, List.dropWhile_cons_of_neg (by simp [hlast]), ← List.reverse_concat,
      List.reverse_reverse]

theorem exists_dropEndWhile_append (p : Char → Bool) (cs : List Char) :
    ∃ ending, cs = Text.dropEndWhile p cs ++ ending ∧ ∀ c ∈ ending, p c = true := by
  refine ⟨(cs.reverse.takeWhile p).reverse, ?_, ?_⟩
  · rw [Text.dropEndWhile, ← List.reverse_append, List.takeWhile_append_dropWhile,
      List.reverse_reverse]
  · intro c hc
    exact List.mem_takeWhile_imp (List.mem_reverse.mp hc)

theorem getLast?_dropEndWhile {p : Char → Bool} {cs : List Char} {c : Char}
    (hc : (Text.dropEndWhile p cs).getLast? = some c) : p c = false := by
  rw [Text.dropEndWhile, List.getLast?_reverse] at hc
  have hn := List.head?_dropWhile_not p cs.reverse
  rw [hc] at hn
  simpa using hn

theorem stripped_iff {line text : String} : Stripped line text ↔ chomp line = text := by
  constructor
  · rintro ⟨⟨ending, hs, he⟩, hb⟩
    have hd := dropEndWhile_append (p := isLineEnd) he hb
    rw [← hs] at hd
    rw [chomp, ← String.ofList_toList (s := text), ← hd]
    rfl
  · rintro rfl
    obtain ⟨ending, hs, he⟩ := exists_dropEndWhile_append isLineEnd line.toList
    refine ⟨⟨ending, ?_, he⟩, ?_⟩
    · rw [chomp, String.toList_ofList]
      exact hs
    · intro c hc
      rw [chomp, String.toList_ofList] at hc
      exact getLast?_dropEndWhile hc

/-! ### One here-document -/

/-- The text of the lines of a here-document: each is followed by a newline. -/
def textOf (kept : List String) : String := String.join (kept.map (· ++ "\n"))

/-- The lines that a here-document takes from a source, those that it leaves, its text, and the
number of lines asked for. -/
inductive Body (delimiter : String) : LineSource → LineSource → String → Nat → Prop where
  /-- The delimiter comes, after lines that are not the delimiter. -/
  | closed {lines kept last rest} : List.Forall₂ Stripped lines kept → delimiter ∉ kept →
      Stripped last delimiter →
      Body delimiter (lines.map some ++ [some last]) rest (textOf kept) (lines.length + 1)
  /-- All lines are taken, and one more is asked for in vain. -/
  | unclosed {lines kept} : List.Forall₂ Stripped lines kept → delimiter ∉ kept →
      Body delimiter (lines.map some) [] (textOf kept) (lines.length + 1)
  /-- A line that is no text comes before the delimiter. -/
  | cut {lines kept rest} : List.Forall₂ Stripped lines kept → delimiter ∉ kept →
      Body delimiter (lines.map some ++ [none]) rest (textOf kept) (lines.length + 1)

theorem textOf_cons (k : String) (kept : List String) :
    textOf (k :: kept) = k ++ "\n" ++ textOf kept := by
  simp [textOf, String.join_cons]

/-- One more line before the others that is not the delimiter. -/
theorem Body.cons {delimiter line k : String} {taken rest : LineSource} {text : String} {n : Nat}
    (hb : Body delimiter taken rest text n) (hl : Stripped line k) (hk : delimiter ≠ k) :
    Body delimiter (some line :: taken) rest (k ++ "\n" ++ text) (n + 1) := by
  cases hb with
  | closed hs hd he =>
    rw [← textOf_cons]
    exact .closed (.cons hl hs) (by simp [hk, hd]) he
  | unclosed hs hd =>
    rw [← textOf_cons]
    exact .unclosed (.cons hl hs) (by simp [hk, hd])
  | cut hs hd =>
    rw [← textOf_cons]
    exact .cut (.cons hl hs) (by simp [hk, hd])

theorem exists_body (delimiter : String) (source : LineSource) :
    ∃ taken, source = taken ++ (readBody delimiter source).rest ∧
      Body delimiter taken (readBody delimiter source).rest (readBody delimiter source).value
        (readBody delimiter source).requests := by
  induction source with
  | nil => exact ⟨[], rfl, .unclosed .nil List.not_mem_nil⟩
  | cons line source ih =>
    cases line with
    | none => exact ⟨[none], rfl, .cut .nil List.not_mem_nil⟩
    | some line =>
      rw [readBody]
      split_ifs with hc
      · exact ⟨[some line], rfl, .closed .nil List.not_mem_nil (stripped_iff.mpr hc)⟩
      · obtain ⟨taken, hs, hb⟩ := ih
        exact ⟨some line :: taken, congrArg _ hs, hb.cons (stripped_iff.mpr rfl) (Ne.symm hc)⟩

/-! ### The here-documents of a line -/

/-- What an input takes from a source, the lines that it leaves, what is read there, and the number
of lines asked for. Only a here-document takes lines. -/
inductive Draws : Option PendingInput → LineSource → LineSource → Option InputSource → Nat → Prop
    where
  | nothing {rest} : Draws none [] rest none 0
  | file {path rest} : Draws (some (.file path)) [] rest (some (.file path)) 0
  | hereDoc {delimiter taken rest text n} : Body delimiter taken rest text n →
      Draws (some (.delimiter delimiter)) taken rest (some (.hereDoc text)) n

theorem exists_draws (i : Option PendingInput) (source : LineSource) :
    ∃ taken, source = taken ++ (PendingInput.complete i source).rest ∧
      Draws i taken (PendingInput.complete i source).rest (PendingInput.complete i source).value
        (PendingInput.complete i source).requests := by
  rcases i with _ | path | delimiter
  · exact ⟨[], rfl, .nothing⟩
  · exact ⟨[], rfl, .file⟩
  · obtain ⟨taken, hs, hb⟩ := exists_body delimiter source
    exact ⟨taken, hs, .hereDoc hb⟩

/-- What the stages of segments take from a source, stage by stage, the lines that are left, and
the number of lines asked for. A stage takes lines for the last input of its segment. -/
inductive Feeds : List (List Token) → LineSource → List Stage → List LineSource → LineSource →
    Nat → Prop where
  | nil {rest} : Feeds [] rest [] [] rest 0
  | cons {seg segs taken source m stage stages pieces rest n} :
      Draws (denoted seg).input taken source stage.input m →
      Feeds segs source stages pieces rest n →
      Feeds (seg :: segs) (taken ++ source) (stage :: stages) (taken :: pieces) rest (m + n)

theorem Feeds.source_eq {segs : List (List Token)} {source rest : LineSource}
    {stages : List Stage} {pieces : List LineSource} {n : Nat}
    (h : Feeds segs source stages pieces rest n) : source = pieces.flatten ++ rest := by
  induction h with
  | nil => rfl
  | cons _ _ ih => rw [List.flatten_cons, List.append_assoc, ← ih]

theorem exists_feeds {segs : List (List Token)} (hw : ∀ seg ∈ segs, WellFormed seg)
    (source : LineSource) :
    ∃ pieces, Feeds segs source (complete (segs.map denoted) source).value pieces
      (complete (segs.map denoted) source).rest (complete (segs.map denoted) source).requests := by
  induction segs generalizing source with
  | nil => exact ⟨[], .nil⟩
  | cons seg segs ih =>
    obtain ⟨hs, hr⟩ := List.forall_mem_cons.mp hw
    obtain ⟨taken, ht, hd⟩ := exists_draws (denoted seg).input source
    obtain ⟨pieces, hf⟩ := ih hr (PendingInput.complete (denoted seg).input source).rest
    refine ⟨taken :: pieces, ?_⟩
    rw [List.map_cons, complete]
    rcases hn : (denoted seg).words with _ | ⟨name, arguments⟩
    · exact absurd hn hs.ne_nil
    let input := (PendingInput.complete (denoted seg).input source).value
    have hc : Feeds (seg :: segs) _ (⟨name, arguments, input, (denoted seg).output⟩ :: _) _ _ _ :=
      .cons hd hf
    rw [← ht] at hc
    exact hc

/-! ### Lines -/

theorem drafts_eq_ok {ts : List Token} {ds : List Draft} {background : Bool}
    (h : drafts ts = .ok (ds, background)) :
    (∀ seg ∈ (body ts).splitOn .pipe, WellFormed seg) ∧
      ds = ((body ts).splitOn .pipe).map denoted := by
  rw [drafts_eq] at h
  rcases hs : segments? (body ts) with _ | ss
  · rw [hs] at h
    cases h
  rw [hs] at h
  dsimp only at h
  have hsplit : Item.segments ss = (body ts).splitOn .pipe := map_segments hs
  rw [← hsplit]
  rcases wellFormed_or_faulty ss with hw | ⟨before, seg, after, f, he, hb, hf⟩
  · rw [mapM_draft_of_wellFormed hw] at h
    obtain ⟨rfl, -⟩ := Prod.mk.inj (Except.ok.inj h)
    exact ⟨hw, rfl⟩
  · rw [mapM_draft_of_faulty he hb hf] at h
    cases h

/-- What reading a line takes from its source, whatever the tokens and the source: nothing, and
without a request, if the line is faulty or empty; else the lines of its here-documents, stage by
stage from the front of the source, and the others stay in their order. -/
theorem ofTokens_takes (ts : List Token) (source : LineSource) :
    match (ofTokens ts source).value with
    | .error _ | .ok none => (ofTokens ts source).requests = 0 ∧ (ofTokens ts source).rest = source
    | .ok (some p) => ∃ pieces,
        Feeds ((body ts).splitOn .pipe) source p.stages pieces (ofTokens ts source).rest
          (ofTokens ts source).requests ∧
        source = pieces.flatten ++ (ofTokens ts source).rest := by
  rw [ofTokens]
  split_ifs with hn
  · exact ⟨rfl, rfl⟩
  rcases hd : drafts ts with f | ⟨ds, background⟩
  · exact ⟨rfl, rfl⟩
  obtain ⟨hw, rfl⟩ := drafts_eq_ok hd
  obtain ⟨pieces, hf⟩ := exists_feeds hw source
  exact ⟨pieces, hf, hf.source_eq⟩

end AssistedShell.Pipeline
