import AssistedShell.Session.Builtin
import Mathlib.Data.List.Induction
import Mathlib.Data.Nat.Digits.Defs

/-! The status with which `exit` ends a session: a decimal whole number of 64
bits counts modulo 256, any other text counts as 2, and without an argument the
status of the last line counts. -/

namespace AssistedShell.Session

/-! ### Decimal whole numbers -/

/-- The number that decimal digits write. -/
def decimal (digits : List Char) : Nat :=
  Nat.ofDigits 10 (digits.reverse.map fun c => c.toNat - '0'.toNat)

/-- Texts that write a whole number in decimal, with a sign on demand. -/
inductive Numeral : List Char → Int → Prop where
  | unsigned {digits} : digits ≠ [] → (∀ c ∈ digits, c.isDigit) → Numeral digits (decimal digits)
  | positive {digits} : digits ≠ [] → (∀ c ∈ digits, c.isDigit) →
      Numeral ('+' :: digits) (decimal digits)
  | negative {digits} : digits ≠ [] → (∀ c ∈ digits, c.isDigit) →
      Numeral ('-' :: digits) (-decimal digits)

theorem decimal_append (digits : List Char) (c : Char) :
    decimal (digits ++ [c]) = decimal digits * 10 + (c.toNat - '0'.toNat) := by
  rw [decimal, List.reverse_append, List.reverse_singleton, List.singleton_append, List.map_cons,
    Nat.ofDigits_cons, decimal, Nat.mul_comm, Nat.add_comm]

theorem toNat_sub_lt_of_isDigit {c : Char} (hc : c.isDigit) : c.toNat - '0'.toNat < 10 := by
  rw [Char.isDigit, Bool.and_eq_true, decide_eq_true_iff, decide_eq_true_iff] at hc
  have hle : c.toNat ≤ '9'.toNat := hc.2
  have h9 : '9'.toNat = '0'.toNat + 9 := rfl
  omega

theorem digit?_ten (c : Char) :
    Text.digit? 10 c = if c.isDigit then some (c.toNat - '0'.toNat) else none := by
  rw [Text.digit?]
  by_cases hc : c.isDigit
  · rw [if_pos hc, if_pos hc, Option.filter_some, if_pos (decide_eq_true (toNat_sub_lt_of_isDigit hc))]
  · rw [if_neg hc, if_neg hc]
    split
    · rw [Option.filter_some, if_neg (by simp)]
    · split
      · rw [Option.filter_some, if_neg (by simp)]
      · rfl

theorem number?_append (base : Nat) (digits : List Char) (c : Char) :
    Text.number? base (digits ++ [c]) =
      (Text.number? base digits).bind fun n => (Text.digit? base c).map (n * base + ·) := by
  rw [Text.number?, List.foldl_append, List.foldl_cons, List.foldl_nil, ← Text.number?]

theorem decimal_nil : decimal [] = 0 := Nat.ofDigits_nil

theorem number?_ten (digits : List Char) :
    Text.number? 10 digits =
      if digits.all Char.isDigit then some (decimal digits) else none := by
  induction digits using List.reverseRecOn with
  | nil => rw [List.all_nil, if_pos rfl, decimal_nil, Text.number?, List.foldl_nil]
  | append_singleton digits c ih =>
    rw [number?_append, ih, digit?_ten, decimal_append, List.all_append, List.all_cons, List.all_nil,
      Bool.and_true]
    cases digits.all Char.isDigit with
    | false => rw [if_neg Bool.false_ne_true, Option.bind_none, Bool.false_and,
        if_neg Bool.false_ne_true]
    | true =>
      rw [if_pos rfl, Option.bind_some, Bool.true_and]
      cases c.isDigit with
      | false => rw [if_neg Bool.false_ne_true, Option.map_none, if_neg Bool.false_ne_true]
      | true => rw [if_pos rfl, Option.map_some, if_pos rfl]

/-! ### The argument of `exit` -/

/-- The status of a number of 64 bits. -/
def statusOfInt? (value : Int) : Option Nat :=
  if -2 ^ 63 ≤ value ∧ value < 2 ^ 63 then some (value % 256).toNat else none

theorem statusOfInt?_eq (value : Int) :
    statusOfInt? value =
      if Int64.minValue.toInt ≤ value ∧ value ≤ Int64.maxValue.toInt then
        some (value % 256).toNat
      else none :=
  if_congr (and_congr_right' Int.le_sub_one_iff.symm) rfl rfl

/-- Whether a text begins with a minus sign, and what follows the sign if there is one. -/
def signed : List Char → Bool × List Char
  | '-' :: digits => (true, digits)
  | '+' :: digits => (false, digits)
  | digits => (false, digits)

variable {text : String} {value : Int} {negative : Bool} {cs digits : List Char}

theorem signed_of_isDigit (hd : ∀ c ∈ digits, c.isDigit) : signed digits = (false, digits) := by
  rw [signed]
  · rintro r rfl
    exact absurd (hd '-' List.mem_cons_self) (by decide)
  · rintro r rfl
    exact absurd (hd '+' List.mem_cons_self) (by decide)

/-- The number of a sign and digits. -/
def valueOf (negative : Bool) (digits : List Char) : Int :=
  if negative then -decimal digits else decimal digits

theorem Numeral.signed (hn : Numeral cs value) :
    ∃ negative digits, Session.signed cs = (negative, digits) ∧ value = valueOf negative digits ∧
      digits ≠ [] ∧ ∀ c ∈ digits, c.isDigit := by
  cases hn with
  | unsigned hne hd => exact ⟨false, _, signed_of_isDigit hd, rfl, hne, hd⟩
  | positive hne hd => exact ⟨false, _, rfl, rfl, hne, hd⟩
  | negative hne hd => exact ⟨true, _, rfl, rfl, hne, hd⟩

theorem numeral_of_signed (hs : signed cs = (negative, digits)) (hne : digits ≠ [])
    (hd : ∀ c ∈ digits, c.isDigit) : Numeral cs (valueOf negative digits) := by
  rw [signed.eq_def] at hs
  split at hs
  · obtain ⟨rfl, rfl⟩ := Prod.mk.inj hs
    exact .negative hne hd
  · obtain ⟨rfl, rfl⟩ := Prod.mk.inj hs
    exact .positive hne hd
  · obtain ⟨rfl, rfl⟩ := Prod.mk.inj hs
    exact .unsigned hne hd

theorem statusOf?_eq (hs : signed text.toList = (negative, digits)) :
    statusOf? text =
      if digits.isEmpty then none
      else if digits.all Char.isDigit then statusOfInt? (valueOf negative digits) else none := by
  rw [statusOf?]
  split
  rename_i negative' digits' hm
  obtain ⟨rfl, rfl⟩ := Prod.mk.inj (hm.symm.trans hs)
  rw [number?_ten]
  cases digits'.all Char.isDigit with
  | false => rw [if_neg Bool.false_ne_true, if_neg Bool.false_ne_true]
  | true => rw [if_pos rfl, if_pos rfl, statusOfInt?_eq, valueOf]

theorem statusOf?_of_numeral (hn : Numeral text.toList value) :
    statusOf? text = statusOfInt? value := by
  obtain ⟨negative, digits, hs, rfl, hne, hd⟩ := hn.signed
  rw [statusOf?_eq hs, if_neg (mt List.isEmpty_iff.mp hne), if_pos (List.all_eq_true.mpr hd)]

theorem exists_numeral {n : Nat} (hs : statusOf? text = some n) :
    ∃ value, Numeral text.toList value := by
  obtain ⟨negative, digits, hsign⟩ : ∃ negative digits, signed text.toList = (negative, digits) :=
    ⟨_, _, rfl⟩
  rw [statusOf?_eq hsign, Option.ite_none_left_eq_some, Option.ite_none_right_eq_some] at hs
  obtain ⟨hne, hd, -⟩ := hs
  exact ⟨_, numeral_of_signed hsign (mt List.isEmpty_iff.mpr hne) (List.all_eq_true.mp hd)⟩

/-- The texts that have a status, and which. -/
theorem statusOf?_eq_some_iff {n : Nat} :
    statusOf? text = some n ↔ ∃ value, Numeral text.toList value ∧
      (-2 ^ 63 ≤ value ∧ value < 2 ^ 63) ∧ (value % 256).toNat = n := by
  constructor
  · intro hs
    obtain ⟨value, hn⟩ := exists_numeral hs
    rw [statusOf?_of_numeral hn, statusOfInt?, Option.ite_none_right_eq_some] at hs
    exact ⟨value, hn, hs.1, Option.some.inj hs.2⟩
  · rintro ⟨value, hn, hin, rfl⟩
    rw [statusOf?_of_numeral hn, statusOfInt?, if_pos hin]

example : statusOf? "-1" = some 255 := by decide +kernel

/-! ### The status -/

/-- The status that `exit` gives a session after a line with a status. -/
inductive ExitStatus (last : Nat) : List String → Nat → Prop where
  | last : ExitStatus last [] last
  | numeral {text rest value} : Numeral text.toList value → -2 ^ 63 ≤ value → value < 2 ^ 63 →
      ExitStatus last (text :: rest) (value % 256).toNat
  | other {text rest} : (∀ value, Numeral text.toList value → value < -2 ^ 63 ∨ 2 ^ 63 ≤ value) →
      ExitStatus last (text :: rest) 2

theorem exit_status {σ : Type} (h : Host σ) (s : Session σ) (arguments : List String) :
    ExitStatus s.lastStatus arguments (s.exit h arguments).1 := by
  cases arguments with
  | nil => exact .last
  | cons text rest =>
    rw [exit]
    cases hs : statusOf? text with
    | none =>
      refine .other ?_
      intro value hn
      by_contra hno
      rw [not_or, not_lt, not_le] at hno
      cases hs.symm.trans (statusOf?_eq_some_iff.mpr ⟨value, hn, hno, rfl⟩)
    | some status =>
      obtain ⟨value, hn, hin, rfl⟩ := statusOf?_eq_some_iff.mp hs
      exact .numeral hn hin.1 hin.2

end AssistedShell.Session
