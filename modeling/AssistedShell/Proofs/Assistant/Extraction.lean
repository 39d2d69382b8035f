import AssistedShell.Assistant.Completion
import Mathlib.Data.List.Forall2

/-! Which answers hold a text. An answer, a choice and a message are records, of each
of which one member is read. That member is looked for by its name in an object, and
the whole answer is read before the first choice is taken. A record may also stand as
an array of its members, and there no name is looked for. So the outcome of an answer
is the one that its objects give exactly if it is not for such an array that it can be
read. -/

namespace AssistedShell.Completion

open Json (Document)

/-! ### Records -/

/-- No member has the name, and all names are texts. -/
def Lacks (name : String) (ms : List (List UInt8 × Document)) : Prop :=
  ∀ m ∈ ms, ∃ k, Json.text? m.1 = some k ∧ k ≠ name

/-- What a record holds as its member `name`. An object has at most one member of the name; with
`bare`, the record may also be the array of the member alone. -/
inductive Record (bare : Bool) (name : String) : Document → Option Document → Prop where
  | absent {ms} : Lacks name ms → Record bare name (.object ms) none
  | present {before key value after} : Json.text? key = some name → Lacks name (before ++ after) →
      Record bare name (.object (before ++ (key, value) :: after)) (some value)
  | listed {value} : bare = true → Record bare name (.array [value]) (some value)

/-- What an absent member counts as, and what a present one is. -/
def Held {α : Type} (empty : α) (P : Document → α → Prop) : Option Document → α → Prop
  | none, x => x = empty
  | some d, x => P d x

/-- A content is a text, or nothing. -/
def IsContent (d : Document) (c : Option String) : Prop :=
  (d = .null ∧ c = none) ∨
    ∃ written s, d = .string written ∧ Json.text? written = some s ∧ c = some s

/-- A message with its content. -/
def IsMessage (bare : Bool) (d : Document) (c : Option String) : Prop :=
  (d = .null ∧ c = none) ∨ ∃ m, Record bare "content" d m ∧ Held none IsContent m c

/-- A choice with the content of its message. -/
def IsChoice (bare : Bool) (d : Document) (c : Option String) : Prop :=
  ∃ m, Record bare "message" d m ∧ Held none (IsMessage bare) m c

/-- Choices with their contents. -/
def AreChoices (bare : Bool) (d : Document) (cs : List (Option String)) : Prop :=
  ∃ items, d = .array items ∧ List.Forall₂ (IsChoice bare) items cs

/-- An answer with the contents of its choices. -/
def IsAnswer (bare : Bool) (d : Document) (cs : List (Option String)) : Prop :=
  (∃ m, Record bare "choices" d m ∧ Held [] (AreChoices bare) m cs) ∨
    (bare = true ∧ d = .array [] ∧ cs = [])

/-- Some bytes are an answer with these contents. -/
def Answers (bare : Bool) (body : List UInt8) (cs : List (Option String)) : Prop :=
  ∃ d, Document.ofBytes? body = some d ∧ IsAnswer bare d cs

/-- A text is the content of the message of the first choice, as it is. -/
def FirstContent (bare : Bool) (body : List UInt8) (s : String) : Prop :=
  ∃ d choice rest message written, Document.ofBytes? body = some d ∧
    Record bare "choices" d (some (.array (choice :: rest))) ∧
    Record bare "message" choice (some message) ∧
    Record bare "content" message (some (.string written)) ∧ Json.text? written = some s

/-- What an answer comes to; `explain` has the words for one that cannot be decoded. -/
inductive Outcome (explain : List UInt8 → String) (bare : Bool) (body : List UInt8) :
    Except CompletionFault String → Prop where
  | blank : body.all isBlankByte → Outcome explain bare body (.error .emptyResponse)
  | content {s cs} : ¬ body.all isBlankByte → Answers bare body (some s :: cs) → ¬ s.isAllBlank →
      Outcome explain bare body (.ok s)
  | blankContent {s cs} : ¬ body.all isBlankByte → Answers bare body (some s :: cs) → s.isAllBlank →
      Outcome explain bare body (.error .emptyResponse)
  | missing {cs} : ¬ body.all isBlankByte → Answers bare body cs → (∀ s, cs.head? ≠ some (some s)) →
      Outcome explain bare body (.error .missingContent)
  | undecodable : ¬ body.all isBlankByte → (∀ cs, ¬ Answers bare body cs) →
      Outcome explain bare body (.error (.undecodable (explain body)))

/-! ### Reading records -/

section
variable {name : String} {ms : List (List UInt8 × Document)} {key : List UInt8} {value : Document}

theorem lacks_cons {m : List UInt8 × Document} :
    Lacks name (m :: ms) ↔ (∃ k, Json.text? m.1 = some k ∧ k ≠ name) ∧ Lacks name ms :=
  List.forall_mem_cons

theorem member?_cons_of_none (hk : Json.text? key = none) :
    member? name ((key, value) :: ms) = none := by
  rw [member?, hk]

theorem member?_cons_of_ne {k : String} (hk : Json.text? key = some k) (hn : k ≠ name) :
    member? name ((key, value) :: ms) = member? name ms := by
  rw [member?, hk]
  cases member? name ms with
  | none => rfl
  | some found => exact if_neg hn

theorem member?_cons_of_eq (hk : Json.text? key = some name) :
    member? name ((key, value) :: ms) =
      (member? name ms).bind fun found => if found.isSome then none else some (some value) := by
  rw [member?, hk]
  cases member? name ms with
  | none => rfl
  | some found => exact if_pos rfl

theorem member?_eq_none_iff : member? name ms = some none ↔ Lacks name ms := by
  induction ms with
  | nil => exact iff_of_true rfl nofun
  | cons m ms ih =>
    obtain ⟨key, value⟩ := m
    rw [lacks_cons]
    rcases hk : Json.text? key with _ | k
    · rw [member?_cons_of_none hk]
      simp
    · by_cases hn : k = name
      · rw [member?_cons_of_eq (hn ▸ hk)]
        rcases member? name ms with _ | _ | found <;> simp [hn]
      · rw [member?_cons_of_ne hk hn, ih]
        simp [hn]

/-- The member that is found is the only one of its name, and all names are texts. -/
theorem member?_eq_some_iff :
    member? name ms = some (some value) ↔
      ∃ before key after, ms = before ++ (key, value) :: after ∧ Json.text? key = some name ∧
        Lacks name (before ++ after) := by
  induction ms with
  | nil => simp [member?]
  | cons m ms ih =>
    obtain ⟨key, first⟩ := m
    constructor
    · intro h
      rcases hk : Json.text? key with _ | k
      · rw [member?_cons_of_none hk] at h
        cases h
      · by_cases hn : k = name
        · rw [member?_cons_of_eq (hn ▸ hk)] at h
          rcases hm : member? name ms with _ | _ | found <;> rw [hm] at h <;> cases h
          exact ⟨[], key, ms, rfl, hn ▸ hk, member?_eq_none_iff.mp hm⟩
        · rw [member?_cons_of_ne hk hn] at h
          obtain ⟨before, key', after, rfl, hk', hl⟩ := ih.mp h
          exact ⟨(key, first) :: before, key', after, rfl, hk', lacks_cons.mpr ⟨⟨k, hk, hn⟩, hl⟩⟩
    · rintro ⟨before, key', after, he, hk', hl⟩
      cases before with
      | nil =>
        obtain ⟨hm, rfl⟩ := List.cons.inj he
        obtain ⟨rfl, rfl⟩ := Prod.mk.inj hm
        rw [member?_cons_of_eq hk', member?_eq_none_iff.mpr (by exact hl)]
        rfl
      | cons m before =>
        obtain ⟨rfl, rfl⟩ := List.cons.inj he
        obtain ⟨⟨k, hk, hn⟩, hl⟩ := lacks_cons.mp hl
        rw [member?_cons_of_ne hk hn]
        exact ih.mpr ⟨before, key', after, rfl, hk', hl⟩

/-- What an object holds as a member is what is found in it. -/
theorem record_object_iff {bare : Bool} {m : Option Document} :
    Record bare name (.object ms) m ↔ member? name ms = some m := by
  constructor
  · intro h
    cases h with
    | absent hl => exact member?_eq_none_iff.mpr hl
    | present hk hl => exact member?_eq_some_iff.mpr ⟨_, _, _, rfl, hk, hl⟩
  · intro h
    cases m with
    | none => exact .absent (member?_eq_none_iff.mp h)
    | some value =>
      obtain ⟨before, key, after, rfl, hk, hl⟩ := member?_eq_some_iff.mp h
      exact .present hk hl

end

section
variable {α : Type} {empty x : α} {P : Document → α → Prop} {bare : Bool} {name : String}

/-- What an object is read as, if `f` reads its member. -/
theorem found_eq_some_iff {f : Document → Option α} (hf : ∀ d, f d = some x ↔ P d x)
    {ms : List (List UInt8 × Document)} :
    (match member? name ms with
      | none => none
      | some none => some empty
      | some (some d) => f d) = some x ↔
      ∃ m, Record bare name (.object ms) m ∧ Held empty P m x := by
  simp only [record_object_iff]
  rcases member? name ms with _ | _ | d
  · simp
  · simp [Held, eq_comm]
  · simp [Held, hf]

/-- The only item of an array is its member. -/
theorem exists_record_array_iff {items : List Document} :
    (∃ m, Record bare name (.array items) m ∧ Held empty P m x) ↔
      bare = true ∧ ∃ d, items = [d] ∧ P d x := by
  constructor
  · rintro ⟨m, hm, hx⟩
    cases hm with
    | listed hb => exact ⟨hb, _, rfl, hx⟩
  · rintro ⟨hb, d, rfl, hx⟩
    exact ⟨some d, .listed hb, hx⟩

end

/-! ### Reading answers -/

section
variable {d : Document} {c : Option String} {cs : List (Option String)}

theorem content?_eq_some_iff : content? d = some c ↔ IsContent d c := by
  cases d with
  | null => simp [content?, IsContent, eq_comm]
  | string written => simp [content?, IsContent, eq_comm (a := c)]
  | bool | number | array | object => simp [content?, IsContent]

theorem message?_eq_some_iff : message? d = some c ↔ IsMessage true d c := by
  cases d with
  | null =>
    have hr : ∀ m, ¬ Record true "content" .null m := nofun
    simp [message?, IsMessage, hr, eq_comm]
  | object ms =>
    simp only [IsMessage, reduceCtorEq, false_and, false_or]
    exact found_eq_some_iff fun d => content?_eq_some_iff
  | array items =>
    rw [IsMessage, exists_record_array_iff]
    rcases items with _ | ⟨d, _ | ⟨e, items⟩⟩ <;> simp [message?, content?_eq_some_iff]
  | bool | number | string => exact iff_of_false nofun nofun

theorem choice?_eq_some_iff : choice? d = some c ↔ IsChoice true d c := by
  cases d with
  | object ms => exact found_eq_some_iff fun d => message?_eq_some_iff
  | array items =>
    rw [IsChoice, exists_record_array_iff]
    rcases items with _ | ⟨d, _ | ⟨e, items⟩⟩ <;> simp [choice?, message?_eq_some_iff]
  | null | bool | number | string => exact iff_of_false nofun nofun

/-- A list is read item by item. -/
theorem mapM_choice?_eq_some_iff {items : List Document} :
    items.mapM choice? = some cs ↔ List.Forall₂ (IsChoice true) items cs := by
  induction items generalizing cs with
  | nil => simp [eq_comm]
  | cons d items ih =>
    simp only [List.mapM_cons, List.forall₂_cons_left_iff, ← choice?_eq_some_iff, ← ih]
    simp [Option.bind_eq_some_iff, eq_comm (a := cs)]

theorem choices?_eq_some_iff : choices? d = some cs ↔ AreChoices true d cs := by
  cases d with
  | array items => simp [choices?, AreChoices, mapM_choice?_eq_some_iff]
  | null | bool | number | string | object => exact iff_of_false nofun nofun

theorem answer?_eq_some_iff : answer? d = some cs ↔ IsAnswer true d cs := by
  cases d with
  | object ms =>
    simp only [IsAnswer, reduceCtorEq, false_and, and_false, or_false]
    exact found_eq_some_iff fun d => choices?_eq_some_iff
  | array items =>
    rw [IsAnswer, exists_record_array_iff]
    rcases items with _ | ⟨d, _ | ⟨e, items⟩⟩
    · simp [answer?, eq_comm]
    · simp [answer?, choices?_eq_some_iff]
    · simp [answer?]
  | null | bool | number | string => exact iff_of_false nofun nofun

end

/-! ### Objects and arrays of members -/

section
variable {bare : Bool} {name : String} {d : Document}

theorem Record.widen {m : Option Document} (h : Record bare name d m) : Record true name d m := by
  cases h with
  | absent hl => exact .absent hl
  | present hk hl => exact .present hk hl
  | listed => exact .listed rfl

theorem Held.imp {α : Type} {empty x : α} {P Q : Document → α → Prop} (hPQ : ∀ d, P d x → Q d x)
    {m : Option Document} (h : Held empty P m x) : Held empty Q m x := by
  cases m with
  | none => exact h
  | some d => exact hPQ d h

theorem Held.exists_of_ne {α : Type} {empty x : α} {P : Document → α → Prop} {m : Option Document}
    (h : Held empty P m x) (hx : x ≠ empty) : ∃ d, m = some d ∧ P d x := by
  cases m with
  | none => exact absurd h hx
  | some d => exact ⟨d, rfl, h⟩

theorem IsMessage.widen {c : Option String} : IsMessage bare d c → IsMessage true d c
  | .inl h => .inl h
  | .inr ⟨m, hm, hc⟩ => .inr ⟨m, hm.widen, hc⟩

theorem IsChoice.widen {c : Option String} : IsChoice bare d c → IsChoice true d c
  | ⟨m, hm, hc⟩ => ⟨m, hm.widen, hc.imp fun _ => IsMessage.widen⟩

theorem AreChoices.widen {cs : List (Option String)} : AreChoices bare d cs → AreChoices true d cs
  | ⟨items, hd, hcs⟩ => ⟨items, hd, hcs.imp fun _ _ => IsChoice.widen⟩

theorem IsAnswer.widen {cs : List (Option String)} : IsAnswer bare d cs → IsAnswer true d cs
  | .inl ⟨m, hm, hcs⟩ => .inl ⟨m, hm.widen, hcs.imp fun _ => AreChoices.widen⟩
  | .inr ⟨_, hd, hcs⟩ => .inr ⟨rfl, hd, hcs⟩

end

/-! ### Outcomes -/

section
variable {bare : Bool} {body : List UInt8} {cs : List (Option String)}
  {r : Except CompletionFault String} {explain : List UInt8 → String}

theorem Answers.widen : Answers bare body cs → Answers true body cs
  | ⟨d, hd, hcs⟩ => ⟨d, hd, hcs.widen⟩

theorem answers_iff : Answers true body cs ↔ (Document.ofBytes? body).bind answer? = some cs := by
  simp only [Answers, Option.bind_eq_some_iff, answer?_eq_some_iff]

/-- Of objects alone, an array is no answer. -/
theorem not_answers_of_array {items : List Document}
    (hd : Document.ofBytes? body = some (.array items)) (cs : List (Option String)) :
    ¬ Answers false body cs := by
  rintro ⟨d, hd', ha⟩
  obtain rfl := Option.some.inj (hd.symm.trans hd')
  obtain ha | ⟨hb, -⟩ := ha
  · obtain ⟨hb, -⟩ := exists_record_array_iff.mp ha
    cases hb
  · cases hb

/-- Bytes are an answer in one way at most. -/
theorem Answers.unique {cs' : List (Option String)} (h : Answers true body cs)
    (h' : Answers true body cs') : cs = cs' :=
  Option.some.inj ((answers_iff.mp h).symm.trans (answers_iff.mp h'))

/-- Blanks are no value, the form feed included, which the format has no place for. -/
theorem readValue_of_blank {fuel : Nat} (h : body.all isBlankByte) :
    Json.readValue fuel body = none := by
  cases fuel with
  | zero => rfl
  | succ fuel =>
    rw [Json.readValue]
    cases hs : Json.skipGap body with
    | nil => rfl
    | cons b r =>
      have hb : isBlankByte b :=
        List.all_eq_true.mp h b ((List.dropWhile_sublist _).subset (hs ▸ List.mem_cons_self))
      have hg : ¬ Json.isGap b := by
        have hd := List.head?_dropWhile_not Json.isGap body
        rw [← Json.skipGap, hs] at hd
        simpa using hd
      have hf : b = 0x0C := by simpa [isBlankByte, hg] using hb
      subst hf
      rfl

theorem not_answers_of_blank (h : body.all isBlankByte) : ¬ Answers bare body cs := by
  rintro ⟨d, hd, -⟩
  rw [Document.ofBytes?, readValue_of_blank h] at hd
  cases hd

theorem outcome_iff : Outcome explain true body r ↔ extract explain body = r := by
  constructor
  · intro h
    cases h with
    | blank hb => rw [extract, if_pos hb]
    | content hb ha hs => simp only [extract, if_neg hb, answers_iff.mp ha, if_neg hs]
    | blankContent hb ha hs => simp only [extract, if_neg hb, answers_iff.mp ha, if_pos hs]
    | @missing cs hb ha hn =>
      simp only [extract, if_neg hb, answers_iff.mp ha]
      rcases cs with _ | ⟨_ | s, cs⟩
      · rfl
      · rfl
      · exact absurd rfl (hn s)
    | undecodable hb ha =>
      have hn : (Document.ofBytes? body).bind answer? = none :=
        Option.eq_none_iff_forall_ne_some.mpr fun cs h => ha cs (answers_iff.mpr h)
      simp only [extract, if_neg hb, hn]
  · rintro rfl
    by_cases hb : body.all isBlankByte
    · rw [extract, if_pos hb]
      exact .blank hb
    · rw [extract, if_neg hb]
      cases ha : (Document.ofBytes? body).bind answer? with
      | none =>
        refine .undecodable hb fun cs h => ?_
        rw [answers_iff.mp h] at ha
        cases ha
      | some cs =>
        rcases cs with _ | ⟨_ | s, cs⟩
        · exact .missing hb (answers_iff.mpr ha) nofun
        · exact .missing hb (answers_iff.mpr ha) nofun
        · by_cases hs : s.isAllBlank
          · simp only [if_pos hs]
            exact .blankContent hb (answers_iff.mpr ha) hs
          · simp only [if_neg hs]
            exact .content hb (answers_iff.mpr ha) hs

/-- An answer without arrays of members has the outcome of its objects. -/
theorem Outcome.narrow (h : Outcome explain true body r)
    (hn : ∀ cs, Answers true body cs → Answers false body cs) : Outcome explain false body r := by
  cases h with
  | blank hb => exact .blank hb
  | content hb ha hs => exact .content hb (hn _ ha) hs
  | blankContent hb ha hs => exact .blankContent hb (hn _ ha) hs
  | missing hb ha hc => exact .missing hb (hn _ ha) hc
  | undecodable hb ha => exact .undecodable hb fun cs h => ha cs h.widen

/-- The outcome of the objects of an answer is reached only if no array of members is read. -/
theorem Outcome.answers_false (h : Outcome explain false body (extract explain body))
    (ha : Answers true body cs) : Answers false body cs := by
  generalize hr : extract explain body = r at h
  cases h with
  | blank hb => exact absurd ha (not_answers_of_blank hb)
  | content _ ha' | blankContent _ ha' | missing _ ha' => exact ha.unique ha'.widen ▸ ha'
  | undecodable hb =>
    cases outcome_iff.mpr hr with
    | undecodable _ hn => exact absurd ha (hn cs)

theorem Outcome.firstContent {s : String} (h : Outcome explain bare body (.ok s)) :
    FirstContent bare body s ∧ ¬ s.isAllBlank := by
  cases h with
  | content _ ha hs =>
    obtain ⟨d, hd, ⟨m, hm, hcs⟩ | ⟨-, -, hcs⟩⟩ := ha
    · obtain ⟨-, rfl, ⟨items, rfl, hitems⟩⟩ := hcs.exists_of_ne nofun
      obtain ⟨choice, rest, hc, -, rfl⟩ := List.forall₂_cons_right_iff.mp hitems
      obtain ⟨m, hmessage, hc⟩ := hc
      obtain ⟨message, rfl, hc⟩ := hc.exists_of_ne nofun
      obtain ⟨-, hc⟩ | ⟨m, hcontent, hc⟩ := hc
      · cases hc
      obtain ⟨-, rfl, ⟨-, hc⟩ | ⟨written, s', rfl, hw, hc⟩⟩ := hc.exists_of_ne nofun
      · cases hc
      cases hc
      exact ⟨⟨d, choice, rest, message, written, hd, hm, hmessage, hcontent, hw⟩, hs⟩
    · cases hcs

end

/-- What comes of an answer. Records may be arrays of their members; it is what comes of the objects
alone exactly if every answer that can be read is one of objects. A text that comes of it is the
content of the message of the first choice, and not blank. -/
theorem extract_outcome (explain : List UInt8 → String) (body : List UInt8) :
    (∀ r, Outcome explain true body r ↔ extract explain body = r) ∧
    (Outcome explain false body (extract explain body) ↔
      ∀ cs, Answers true body cs → Answers false body cs) ∧
    ∀ bare s, Outcome explain bare body (.ok s) → FirstContent bare body s ∧ ¬ s.isAllBlank := by
  refine ⟨fun r => outcome_iff, ⟨fun h cs => h.answers_false, fun hn => ?_⟩, ?_⟩
  · have h : Outcome explain true body (extract explain body) := outcome_iff.mpr rfl
    exact h.narrow hn
  · intro bare s h
    exact h.firstContent

/-- An array in arrays is read for the text in it, where an answer of objects would be none. -/
theorem extract_array_of_arrays :
    let body := "[[[[\"ls\"]]]]".toUTF8.toList
    let explain : List UInt8 → String := fun _ => "not a completion"
    extract explain body = .ok "ls" ∧ ¬ Outcome explain false body (.ok "ls") ∧
      Outcome explain false body (.error (.undecodable "not a completion")) := by
  intro body explain
  have hb : body = [0x5B, 0x5B, 0x5B, 0x5B, 0x22, 0x6C, 0x73, 0x22, 0x5D, 0x5D, 0x5D, 0x5D] := by
    decide +kernel
  rw [hb]
  refine ⟨rfl, ?_, ?_⟩
  · intro h
    cases h with
    | content _ ha => exact not_answers_of_array rfl _ ha
  · exact .undecodable (by decide) (not_answers_of_array rfl)

end AssistedShell.Completion
