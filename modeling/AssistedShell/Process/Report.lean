import AssistedShell.Process

/-! The words in which the system reports how a process ended. The seven lowest
bits tell the signal, and with none of them set the next byte tells the exit
code. All of them set do not tell a signal: such a word is taken as it is. -/

namespace AssistedShell

/-- The words that report an ending. The eighth bit tells of a memory image that was kept. -/
inductive Reports : Nat → Ending → Prop where
  | exited (code : UInt8) : Reports (256 * code.toNat) (.exited code)
  | killed (signal : Fin 128) (kept : Bool) : signal ≠ 0 →
      Reports (signal + 128 * kept.toNat) (.killed signal)

/-- The status that a word is taken for. -/
def statusOfWord (word : Nat) : Nat :=
  if word % 128 = 0 then word / 256 % 256
  else if word % 128 < 127 then 128 + word % 128
  else word

variable {word : Nat} {e : Ending}

theorem Reports.statusOfWord_lt (hr : Reports word e) : statusOfWord word < 256 := by
  rw [statusOfWord]
  cases hr with
  | exited code =>
    rw [if_pos (by omega)]
    omega
  | killed signal kept _ =>
    have hs := signal.isLt
    have hk := kept.toNat_lt
    split
    · omega
    · split <;> omega

/-- No system has a signal 127, and every other ending has the status that its report is taken
for. -/
theorem Reports.statusOfWord_eq (hr : Reports word e) (he : e ≠ .killed 127) :
    statusOfWord word = e.status := by
  rw [statusOfWord]
  cases hr with
  | exited code =>
    have hc := code.toNat_lt
    rw [if_pos (by omega), Ending.status]
    omega
  | killed signal kept h0 =>
    have hs := signal.isLt
    have hpos : signal.val ≠ 0 := fun h => h0 (Fin.ext h)
    have hmax : signal.val ≠ 127 := fun h => he (congrArg Ending.killed (Fin.ext h))
    rw [Nat.add_mul_mod_self_left, Nat.mod_eq_of_lt hs, if_neg hpos, if_pos (by omega),
      Ending.status]

end AssistedShell
