import AssistedShell.Assistant.Completion
import Mathlib.Data.List.Infix

/-! Keys and the header that carries them. A text is accepted as a key by how it
begins and by how many of its characters are printable, and the key is those
characters. A header can hold every one of them, so a request that is given an
accepted key always bears it, once, and is otherwise as it was. -/

namespace AssistedShell

/-! ### The header -/

namespace Http

theorem filter_insert_eq (hs : Headers) (name value : String) :
    (hs.insert name value).filter (·.1 = name) = [(name, value)] := by
  have hnone : (hs.filter (·.1 ≠ name)).filter (·.1 = name) = [] := by
    rw [List.filter_filter]
    simp
  rw [Headers.insert, List.filter_append, hnone]
  simp

theorem filter_insert_ne (hs : Headers) (name value : String) :
    (hs.insert name value).filter (·.1 ≠ name) = hs.filter (·.1 ≠ name) := by
  rw [Headers.insert, List.filter_append, List.filter_filter]
  simp

/-- A request that bears a token and is otherwise the one it was made from. -/
structure Request.Bears (token : String) (bare r : Request) : Prop where
  header : r.headers.filter (·.1 = "authorization") = [("authorization", "Bearer " ++ token)]
  others : r.headers.filter (·.1 ≠ "authorization") = bare.headers.filter (·.1 ≠ "authorization")
  rest : { r with headers := bare.headers } = bare

/-- A token that a header can hold is not left out. -/
theorem Request.bears_authorize {token : String} (ht : token.toList.all isHeaderChar)
    (r : Request) : Bears token r (r.authorize token) := by
  rw [authorize, if_pos ht]
  exact ⟨filter_insert_eq _ _ _, filter_insert_ne _ _ _, rfl⟩

end Http

/-! ### The key -/

namespace Credential

variable {name text : String} {k : Credential}

theorem isHeaderChar_of_isPrintable {c : Char} (hc : isPrintable c) : Http.isHeaderChar c := by
  obtain ⟨hblank, htilde⟩ : ' ' ≤ c ∧ c ≤ '~' := by simpa [isPrintable] using hc
  have hne : c ≠ '\x7f' := by
    rintro rfl
    exact absurd htilde (by decide)
  simp [Http.isHeaderChar, hblank, hne]

/-- What is kept of a text. -/
def kept (text : String) : List Char := text.toList.filter isPrintable

theorem ofText_eq (name text : String) :
    ofText name text =
      if mark <+: text.toList then
        if (kept text).length < leastLength then .error (.tooShort name)
        else .ok ⟨String.ofList (kept text)⟩
      else .error (.badStart name) := by
  rw [ofText]
  by_cases hm : mark <+: text.toList
  · rw [if_pos hm, if_pos (List.isPrefixOf_iff_prefix.mpr hm)]
    rfl
  · rw [if_neg hm, if_neg (mt List.isPrefixOf_iff_prefix.mp hm)]

theorem ofText_eq_badStart_iff :
    ofText name text = .error (.badStart name) ↔ ¬ mark <+: text.toList := by
  rw [ofText_eq]
  split_ifs with hm hl
  · simp [hm]
  · simp [hm]
  · simp [hm]

theorem ofText_eq_tooShort_iff :
    ofText name text = .error (.tooShort name) ↔
      mark <+: text.toList ∧ (kept text).length < leastLength := by
  rw [ofText_eq]
  split_ifs with hm hl
  · simp [hm, hl]
  · simp [hl]
  · simp [hm]

theorem ofText_eq_ok_iff :
    ofText name text = .ok k ↔
      mark <+: text.toList ∧ leastLength ≤ (kept text).length ∧
        k.key = String.ofList (kept text) := by
  rw [ofText_eq]
  split_ifs with hm hl
  · simp [Nat.not_le.mpr hl]
  · rw [Except.ok.injEq, eq_comm, and_iff_right hm, and_iff_right (Nat.not_lt.mp hl)]
    cases k
    simp
  · simp [hm]

theorem mark_prefix_kept (hm : mark <+: text.toList) : mark <+: kept text := by
  obtain ⟨rest, ht⟩ := hm
  have hmark : mark.filter isPrintable = mark := by decide
  exact ⟨rest.filter isPrintable, by rw [kept, ← ht, List.filter_append, hmark]⟩

/-- What is kept is kept again. -/
theorem kept_kept (text : String) : kept (String.ofList (kept text)) = kept text := by
  rw [kept, String.toList_ofList, kept, List.filter_filter]
  simp

theorem all_isHeaderChar (h : ofText name text = .ok k) : k.key.toList.all Http.isHeaderChar := by
  obtain ⟨-, -, hk⟩ := ofText_eq_ok_iff.mp h
  rw [hk, String.toList_ofList, List.all_eq_true]
  intro c hc
  exact isHeaderChar_of_isPrintable (List.mem_filter.mp hc).2

/-- A text is refused for its beginning, else for having too few printable characters, and else
those are the key. A key begins as it has to and is read as itself. Whatever request it is given to
bears it in its one header of the kind and is otherwise unchanged, and so does every request for a
completion. -/
theorem ofText_sends (name text : String) :
    (ofText name text = .error (.badStart name) ↔ ¬ "sk-".toList <+: text.toList) ∧
    (ofText name text = .error (.tooShort name) ↔
      "sk-".toList <+: text.toList ∧ (text.toList.filter isPrintable).length < 5) ∧
    (∀ k, ofText name text = .ok k ↔
      "sk-".toList <+: text.toList ∧ 5 ≤ (text.toList.filter isPrintable).length ∧
        k.key = String.ofList (text.toList.filter isPrintable)) ∧
    ∀ k, ofText name text = .ok k →
      "sk-".toList <+: k.key.toList ∧ (∀ name', ofText name' k.key = .ok k) ∧
      ("Bearer " ++ k.key).toList.all Http.isHeaderChar ∧
      (∀ r : Http.Request, Http.Request.Bears k.key r (r.authorize k.key)) ∧
      ∀ (c : CompletionRequest) provider model,
        Http.Request.Bears k.key (c.toHttp provider model none)
          (c.toHttp provider model (some k.key)) := by
  refine ⟨ofText_eq_badStart_iff, ofText_eq_tooShort_iff, fun k => ofText_eq_ok_iff, fun k h => ?_⟩
  obtain ⟨hm, hl, hk⟩ := ofText_eq_ok_iff.mp h
  have hall := all_isHeaderChar h
  have hkept : kept k.key = kept text := by rw [hk, kept_kept]
  have hmark : mark <+: k.key.toList := by
    rw [hk, String.toList_ofList]
    exact mark_prefix_kept hm
  refine ⟨hmark, fun name' => ?_, ?_, fun r => r.bears_authorize hall, fun c provider model => ?_⟩
  · rw [ofText_eq_ok_iff, hkept]
    exact ⟨hmark, hl, hk⟩
  · rw [String.toList_append, List.all_append, hall, Bool.and_true]
    decide
  · exact Http.Request.bears_authorize hall _

/-- Characters that no key keeps, and a request with two headers of the kind. -/
theorem ofText_sends_twice :
    let text := "sk-é\x7fa b\n"
    let r : Http.Request := { method := "POST", url := "u", headers :=
      [("authorization", "old"), ("x-a", "1"), ("authorization", "older")] }
    ofText "K" text = .ok ⟨"sk-a b"⟩ ∧
      (r.authorize "sk-a b").headers.filter (·.1 = "authorization") =
        [("authorization", "Bearer sk-a b")] ∧
      (r.authorize "sk-a b").headers.filter (·.1 ≠ "authorization") = [("x-a", "1")] := by
  intro text r
  have hk : ofText "K" text = .ok ⟨"sk-a b"⟩ := by decide
  obtain ⟨-, -, -, hsent⟩ := ofText_sends "K" text
  obtain ⟨-, -, -, hbears, -⟩ := hsent _ hk
  have hb : Http.Request.Bears "sk-a b" r (r.authorize "sk-a b") := hbears r
  exact ⟨hk, hb.header, hb.others⟩

end Credential

end AssistedShell
