/-! Digits and the numbers they write, in a base up to sixteen. -/

namespace AssistedShell.Text

/-- The value of a digit. -/
def digit? (base : Nat) (c : Char) : Option Nat :=
  let v :=
    if c.isDigit then some (c.toNat - '0'.toNat)
    else if 'a' ≤ c && c ≤ 'f' then some (c.toNat - 'a'.toNat + 10)
    else if 'A' ≤ c && c ≤ 'F' then some (c.toNat - 'A'.toNat + 10)
    else none
  v.filter (· < base)

/-- The number that digits write; no digits write zero. -/
def number? (base : Nat) (cs : List Char) : Option Nat :=
  cs.foldl (fun acc c => acc.bind fun n => (digit? base c).map (n * base + ·)) (some 0)

theorem lt_of_digit? {base n : Nat} {c : Char} (h : digit? base c = some n) : n < base := by
  simp only [digit?, Option.filter_eq_some_iff, decide_eq_true_eq] at h
  exact h.2

end AssistedShell.Text
