import AssistedShell.Text.Search
import AssistedShell.Text.Utf8

/-! A text cut to a number of bytes. What stays is the longest front part that
ends at a character boundary and fits. The search for that boundary, from the
limit backwards, ends inside the text, and the bytes before the boundary are a
text again, so nothing can go wrong on the way. -/

namespace AssistedShell.Text

/-- Whether a text may be cut after its first `n` bytes: it has so many, and no character goes on
there. -/
abbrev IsBoundary (text : String) (n : Nat) : Prop := (⟨n⟩ : String.Pos.Raw).IsValid text

/-- The longest front part of a text that ends at a boundary and has at most `limit` bytes. -/
structure LongestFront (limit : Nat) (text front : String) : Prop where
  bytes_eq : front.toByteArray = text.toByteArray.extract 0 front.utf8ByteSize
  boundary : IsBoundary text front.utf8ByteSize
  fits : front.utf8ByteSize ≤ limit
  longest : ∀ n ≤ limit, IsBoundary text n → n ≤ front.utf8ByteSize

variable {limit : Nat} {text front rest : String}

theorem LongestFront.unique {front' : String} (h : LongestFront limit text front)
    (h' : LongestFront limit text front') : front = front' := by
  have hle : front.utf8ByteSize ≤ front'.utf8ByteSize := h'.longest _ h.fits h.boundary
  have hge : front'.utf8ByteSize ≤ front.utf8ByteSize := h.longest _ h'.fits h'.boundary
  apply String.toByteArray_inj.mp
  rw [h.bytes_eq, h'.bytes_eq, Nat.le_antisymm hle hge]

/-! ### Whole characters -/

theorem utf8ByteSize_ofList_cons (c : Char) (cs : List Char) :
    (String.ofList (c :: cs)).utf8ByteSize = c.utf8Size + (String.ofList cs).utf8ByteSize := by
  rw [← List.singleton_append, String.ofList_append, String.utf8ByteSize_append,
    ← String.singleton_eq_ofList, String.utf8ByteSize_singleton]

theorem takeBytes_prefix (budget : Nat) (cs : List Char) : takeBytes budget cs <+: cs := by
  induction cs generalizing budget with
  | nil => exact List.nil_prefix
  | cons c cs ih =>
    rw [takeBytes]
    split
    · exact (List.cons_prefix_cons).mpr ⟨rfl, ih _⟩
    · exact List.nil_prefix

theorem utf8ByteSize_takeBytes_le (budget : Nat) (cs : List Char) :
    (String.ofList (takeBytes budget cs)).utf8ByteSize ≤ budget := by
  induction cs generalizing budget with
  | nil => simp [takeBytes]
  | cons c cs ih =>
    rw [takeBytes]
    split
    · have hr := ih (budget - c.utf8Size)
      rw [utf8ByteSize_ofList_cons]
      omega
    · simp

/-- A front part that fits is kept. -/
theorem prefix_takeBytes {budget : Nat} {kept cs : List Char} (hk : kept <+: cs)
    (hs : (String.ofList kept).utf8ByteSize ≤ budget) : kept <+: takeBytes budget cs := by
  induction kept generalizing budget cs with
  | nil => exact List.nil_prefix
  | cons c kept ih =>
    obtain ⟨tail, rfl⟩ := hk
    rw [utf8ByteSize_ofList_cons] at hs
    rw [List.cons_append, takeBytes, if_pos (by omega)]
    exact List.cons_prefix_cons.mpr ⟨rfl, ih (List.prefix_append _ _) (by omega)⟩

/-! ### Texts -/

theorem exists_cut_append (limit : Nat) (text : String) : ∃ rest, text = cut limit text ++ rest := by
  obtain ⟨tail, ht⟩ := takeBytes_prefix limit text.toList
  refine ⟨String.ofList tail, ?_⟩
  rw [cut, ← String.ofList_append, ht, String.ofList_toList]

theorem utf8ByteSize_cut_le (limit : Nat) (text : String) :
    (cut limit text).utf8ByteSize ≤ limit := utf8ByteSize_takeBytes_le limit _

theorem isBoundary_append (front rest : String) : IsBoundary (front ++ rest) front.utf8ByteSize :=
  String.Pos.Raw.isValid_iff_exists_append.mpr ⟨front, rest, rfl, rfl⟩

theorem isBoundary_utf8ByteSize (text : String) : IsBoundary text text.utf8ByteSize :=
  String.Pos.Raw.isValid_rawEndPos

theorem extract_append (front rest : String) :
    (front ++ rest).toByteArray.extract 0 front.utf8ByteSize = front.toByteArray := by
  rw [String.toByteArray_append, ← String.size_toByteArray, ByteArray.extract_append_eq_left rfl]

theorem exists_append_of_isBoundary {n : Nat} (hb : IsBoundary text n) :
    ∃ front rest, text = front ++ rest ∧ n = front.utf8ByteSize := by
  obtain ⟨front, rest, ht, hn⟩ := String.Pos.Raw.isValid_iff_exists_append.mp hb
  exact ⟨front, rest, ht, congrArg String.Pos.Raw.byteIdx hn⟩

theorem cut_longest (limit : Nat) (text : String) : LongestFront limit text (cut limit text) := by
  obtain ⟨rest, ht⟩ := exists_cut_append limit text
  refine ⟨?_, ?_, utf8ByteSize_cut_le limit text, ?_⟩
  · have hb := extract_append (cut limit text) rest
    rw [← ht] at hb
    exact hb.symm
  · have hb := isBoundary_append (cut limit text) rest
    rwa [← ht] at hb
  · intro n hn hb
    obtain ⟨front, tail, rfl, rfl⟩ := exists_append_of_isBoundary hb
    have hf : front.toList <+: takeBytes limit (front ++ tail).toList := by
      apply prefix_takeBytes
      · rw [String.toList_append]
        exact List.prefix_append _ _
      · rwa [String.ofList_toList]
    obtain ⟨more, hm⟩ := hf
    have hc : cut limit (front ++ tail) = front ++ String.ofList more := by
      rw [cut, ← hm, String.ofList_append, String.ofList_toList]
    rw [hc, String.utf8ByteSize_append]
    exact Nat.le_add_right _ _

theorem cut_eq_iff {front : String} : cut limit text = front ↔ LongestFront limit text front :=
  ⟨fun h => h ▸ cut_longest limit text, (cut_longest limit text).unique⟩

/-- A text that fits is not cut. -/
theorem cut_eq_self_iff : cut limit text = text ↔ text.utf8ByteSize ≤ limit := by
  constructor
  · intro h
    have hs := utf8ByteSize_cut_le limit text
    rwa [h] at hs
  · intro h
    exact cut_eq_iff.mpr ⟨by rw [← String.size_toByteArray, ByteArray.extract_zero_size],
      isBoundary_utf8ByteSize text, h, fun n _ hb => hb.le_utf8ByteSize⟩

/-- A front part that fills the limit is all that stays. -/
theorem takeBytes_append {budget : Nat} {front : List Char}
    (hf : budget ≤ (String.ofList front).utf8ByteSize) (rest : List Char) :
    takeBytes budget (front ++ rest) = takeBytes budget front := by
  induction front generalizing budget with
  | nil =>
    have hz : budget = 0 := Nat.le_zero.mp hf
    cases rest with
    | nil => rfl
    | cons c rest =>
      have hc := c.utf8Size_pos
      rw [List.nil_append, takeBytes, takeBytes, if_neg (by omega)]
  | cons c front ih =>
    rw [utf8ByteSize_ofList_cons] at hf
    rw [List.cons_append, takeBytes, takeBytes, ih (by omega)]

theorem cut_append {front : String} (hf : limit ≤ front.utf8ByteSize) (rest : String) :
    cut limit (front ++ rest) = cut limit front := by
  rw [cut, String.toList_append, takeBytes_append (by rwa [String.ofList_toList]), ← cut]

/-- What is found in a text that was cut is what stands in the text and ends within the limit. -/
theorem occurs_cut_iff (needle : String) (limit : Nat) (text : String) :
    occurs needle.toList (cut limit text).toList = true ↔
      ∃ before after, text = before ++ needle ++ after ∧
        (before ++ needle).utf8ByteSize ≤ limit := by
  rw [occurs_iff]
  constructor
  · rintro ⟨a, b, hab⟩
    obtain ⟨rest, ht⟩ := exists_cut_append limit text
    have hc : cut limit text = String.ofList a ++ needle ++ String.ofList b := by
      rw [← String.toList_inj, hab]
      simp
    refine ⟨String.ofList a, String.ofList b ++ rest, ?_, ?_⟩
    · rw [← String.append_assoc, ← hc, ← ht]
    · have hs := utf8ByteSize_cut_le limit text
      rw [hc, String.utf8ByteSize_append] at hs
      omega
  · rintro ⟨before, after, rfl, hs⟩
    have hp : (before ++ needle).toList <+: takeBytes limit (before ++ needle ++ after).toList := by
      apply prefix_takeBytes
      · rw [String.toList_append (s := before ++ needle)]
        exact List.prefix_append _ _
      · rwa [String.ofList_toList]
    obtain ⟨more, hm⟩ := hp
    exact ⟨before.toList, more, by rw [cut, String.toList_ofList, ← hm, String.toList_append]⟩

/-! ### The search for the boundary -/

/-- The last boundary at `n` or before, searched backwards; none if the search passes the start of
the text. -/
def boundaryBefore? (text : String) (n : Nat) : Option Nat :=
  if IsBoundary text n then some n
  else
    match n with
    | 0 => none
    | n + 1 => boundaryBefore? text n

/-- The text of the first `n` bytes; none if that is no boundary. -/
def front? (text : String) (n : Nat) : Option String :=
  if h : IsBoundary text n then
    some (String.fromUTF8 (text.toByteArray.extract 0 n) h.isValidUTF8_extract_zero)
  else none

/-- A text cut to at most `limit` bytes by a search backwards from the limit; none if the search
or the cut goes wrong. -/
def cutBefore? (limit : Nat) (text : String) : Option String :=
  if text.utf8ByteSize ≤ limit then some text
  else (boundaryBefore? text limit).bind (front? text)

/-- The search ends at the last boundary. -/
theorem exists_boundaryBefore (text : String) (n : Nat) :
    ∃ m ≤ n, boundaryBefore? text n = some m ∧ IsBoundary text m ∧
      ∀ k ≤ n, IsBoundary text k → k ≤ m := by
  induction n with
  | zero =>
    have hz : IsBoundary text 0 := String.Pos.Raw.isValid_zero
    exact ⟨0, Nat.le_refl _, by rw [boundaryBefore?, if_pos hz], hz, fun k hk _ => hk⟩
  | succ n ih =>
    rw [boundaryBefore?]
    by_cases hb : IsBoundary text (n + 1)
    · exact ⟨n + 1, Nat.le_refl _, if_pos hb, hb, fun k hk _ => hk⟩
    · obtain ⟨m, hm, hs, hbm, hl⟩ := ih
      refine ⟨m, Nat.le_succ_of_le hm, by rw [if_neg hb]; exact hs, hbm, fun k hk hbk => ?_⟩
      rcases Nat.le_succ_iff.mp hk with hk | rfl
      · exact hl k hk hbk
      · exact absurd hbk hb

/-- Neither the search nor the cut goes wrong, and what stays is the longest front part. -/
theorem cutBefore?_eq (limit : Nat) (text : String) :
    cutBefore? limit text = some (cut limit text) := by
  rw [cutBefore?]
  split
  case isTrue hs => rw [cut_eq_self_iff.mpr hs]
  case isFalse =>
    obtain ⟨m, hm, hb, hbm, hl⟩ := exists_boundaryBefore text limit
    obtain ⟨front, rest, rfl, rfl⟩ := exists_append_of_isBoundary hbm
    have hf : front? (front ++ rest) front.utf8ByteSize = some front := by
      rw [front?, dif_pos hbm, Option.some.injEq, ← String.toByteArray_inj]
      exact extract_append front rest
    rw [hb, Option.bind_some, hf, Option.some.injEq, eq_comm, cut_eq_iff]
    exact ⟨(extract_append front rest).symm, hbm, hm, hl⟩

end AssistedShell.Text
