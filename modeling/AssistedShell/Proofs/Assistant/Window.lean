import AssistedShell.Assistant.Conversation
import AssistedShell.Proofs.Text.Cutting
import Mathlib.Data.List.DropRight
import Mathlib.Data.List.Forall2

/-! A conversation as a window on what was said. Whatever is added and cleared,
its entries are the latest of the texts that were added since it was cleared
last, in their order, as many as it may hold, each cut to the longest front part
that fits. A limit of no entries or of no bytes is no exception. -/

/-! ### The last elements of a list -/

theorem List.rtake_rtake {α : Type*} (xs : List α) (m n : ℕ) :
    (xs.rtake m).rtake n = xs.rtake (min n m) := by
  rw [rtake_eq_reverse_take_reverse, rtake_eq_reverse_take_reverse xs, reverse_reverse, take_take,
    rtake_eq_reverse_take_reverse]

theorem List.map_rtake {α β : Type*} (f : α → β) (xs : List α) (n : ℕ) :
    (xs.rtake n).map f = (xs.map f).rtake n := by
  rw [rtake, rtake, map_drop, length_map]

theorem List.length_rtake {α : Type*} (xs : List α) (n : ℕ) :
    (xs.rtake n).length = min n xs.length := by
  rw [rtake, length_drop]
  omega

/-- To keep the last elements one by one is to keep them at the end. -/
theorem List.rtake_concat_rtake {α : Type*} (xs : List α) (x : α) (n : ℕ) :
    (xs.rtake n ++ [x]).rtake n = (xs ++ [x]).rtake n := by
  cases n with
  | zero => rw [rtake_zero, rtake_zero]
  | succ n => rw [rtake_concat_succ, rtake_concat_succ, rtake_rtake, min_eq_left n.le_succ]

namespace AssistedShell

/-- A text and who says it. -/
abbrev Saying := Origin × String

namespace Conversation

variable {entryLimit byteLimit : ℕ} {said : List Saying} {c : Conversation}

/-- What can be done to a conversation. -/
inductive Operation where
  | append (saying : Saying)
  | clear
  deriving DecidableEq

def Operation.run (c : Conversation) : Operation → Conversation
  | .append saying => c.append saying.1 saying.2
  | .clear => c.clear

/-- The texts added that no clearing comes after. -/
def standing : List Operation → List Saying
  | [] => []
  | .append saying :: later =>
    if .clear ∈ later then standing later else saying :: standing later
  | .clear :: later => standing later

theorem standing_append (ops : List Operation) (saying : Saying) :
    standing (ops ++ [.append saying]) = standing ops ++ [saying] := by
  induction ops with
  | nil => rfl
  | cons op ops ih =>
    cases op with
    | append first =>
      have hm : Operation.clear ∈ ops ++ [.append saying] ↔ .clear ∈ ops := by simp
      rw [List.cons_append, standing, standing, ih]
      by_cases hc : Operation.clear ∈ ops
      · rw [if_pos hc, if_pos (hm.mpr hc)]
      · rw [if_neg hc, if_neg (mt hm.mp hc), List.cons_append]
    | clear => rw [List.cons_append, standing, standing, ih]

theorem standing_clear (ops : List Operation) : standing (ops ++ [.clear]) = [] := by
  induction ops with
  | nil => rfl
  | cons op ops ih =>
    cases op with
    | append first => rw [List.cons_append, standing, if_pos (by simp), ih]
    | clear => rw [List.cons_append, standing, ih]

/-! ### The entries that stay -/

/-- A text as an entry. -/
def entry (byteLimit : ℕ) (saying : Saying) : Entry :=
  ⟨saying.1, Text.cut byteLimit saying.2⟩

/-- The conversation after `said` was said. -/
def holding (entryLimit byteLimit : ℕ) (said : List Saying) : Conversation :=
  ⟨entryLimit, byteLimit, (said.rtake entryLimit).map (entry byteLimit)⟩

theorem holding_nil : holding entryLimit byteLimit [] = ⟨entryLimit, byteLimit, []⟩ := by
  rw [holding, List.rtake_nil, List.map_nil]

/-- What was said last is kept if anything is. -/
theorem getLast?_entries_append (hpos : 0 < c.entryLimit) (saying : Saying) :
    (c.append saying.1 saying.2).entries.getLast? = some (entry c.byteLimit saying) := by
  obtain ⟨n, hn⟩ := Nat.exists_eq_succ_of_ne_zero hpos.ne'
  change ((c.entries ++ [entry c.byteLimit saying]).rtake c.entryLimit).getLast? = _
  rw [hn, List.rtake_concat_succ, List.getLast?_concat]

theorem getLast?_messages_append (hpos : 0 < c.entryLimit) (saying : Saying) :
    (c.append saying.1 saying.2).messages.getLast? =
      some ⟨saying.1.role, Text.cut c.byteLimit saying.2⟩ := by
  rw [messages, List.getLast?_map, getLast?_entries_append hpos]
  rfl

theorem append_holding (saying : Saying) :
    (holding entryLimit byteLimit said).append saying.1 saying.2 =
      holding entryLimit byteLimit (said ++ [saying]) := by
  have he : ((said.rtake entryLimit).map (entry byteLimit) ++ [entry byteLimit saying]).rtake
      entryLimit = ((said ++ [saying]).rtake entryLimit).map (entry byteLimit) := by
    rw [List.map_rtake, List.rtake_concat_rtake, List.map_rtake, List.map_append,
      List.map_singleton]
  exact congrArg (Conversation.mk entryLimit byteLimit) he

theorem clear_holding :
    (holding entryLimit byteLimit said).clear = holding entryLimit byteLimit [] := holding_nil.symm

theorem run_eq_holding (entryLimit byteLimit : ℕ) (ops : List Operation) :
    ops.foldl Operation.run ⟨entryLimit, byteLimit, []⟩ =
      holding entryLimit byteLimit (standing ops) := by
  induction ops using List.reverseRecOn with
  | nil => exact holding_nil.symm
  | append_singleton ops op ih =>
    rw [List.foldl_concat, ih]
    cases op with
    | append saying => rw [Operation.run, append_holding, standing_append]
    | clear => rw [Operation.run, clear_holding, standing_clear]

/-! ### The window -/

/-- The speaker in whose name an entry is told. -/
def Speaks (origin : Origin) (role : Role) : Prop :=
  (origin = .assistant ∧ role = .assistant) ∨
    ((origin = .user ∨ origin = .commandOutput) ∧ role = .user)

/-- Whether an entry holds a text, as long as fits. -/
structure Holds (byteLimit : ℕ) (saying : Saying) (e : Entry) : Prop where
  origin : e.origin = saying.1
  content : Text.LongestFront byteLimit saying.2 e.content

/-- Whether a message tells a text, as long as fits. -/
structure Tells (byteLimit : ℕ) (saying : Saying) (m : Message) : Prop where
  role : Speaks saying.1 m.role
  content : Text.LongestFront byteLimit saying.2 m.content

/-- What a conversation holds after `said` was said: the latest of it, in its order. -/
structure Window (entryLimit byteLimit : ℕ) (said : List Saying) (c : Conversation) : Prop where
  entries : List.Forall₂ (Holds byteLimit) (said.rtake entryLimit) c.entries
  length : c.length = min entryLimit said.length
  isEmpty : c.isEmpty = true ↔ entryLimit = 0 ∨ said = []
  messages : List.Forall₂ (Tells byteLimit) (said.rtake entryLimit) c.messages

theorem speaks_role (origin : Origin) : Speaks origin origin.role := by
  cases origin with
  | assistant => exact .inl ⟨rfl, rfl⟩
  | user => exact .inr ⟨.inl rfl, rfl⟩
  | commandOutput => exact .inr ⟨.inr rfl, rfl⟩

theorem length_holding :
    (holding entryLimit byteLimit said).length = min entryLimit said.length := by
  rw [length, holding, List.length_map, List.length_rtake]

theorem messages_holding : (holding entryLimit byteLimit said).messages =
    (said.rtake entryLimit).map fun saying =>
      ⟨saying.1.role, Text.cut byteLimit saying.2⟩ := by
  rw [messages, holding, List.map_map]
  rfl

theorem window_holding (entryLimit byteLimit : ℕ) (said : List Saying) :
    Window entryLimit byteLimit said (holding entryLimit byteLimit said) where
  entries := by
    rw [holding, List.forall₂_map_right_iff, List.forall₂_same]
    exact fun saying _ => ⟨rfl, Text.cut_longest byteLimit saying.2⟩
  length := length_holding
  isEmpty := by
    have hl : (holding entryLimit byteLimit said).entries.length = min entryLimit said.length :=
      length_holding
    rw [isEmpty, List.isEmpty_iff_length_eq_zero, hl, ← List.length_eq_zero_iff]
    omega
  messages := by
    rw [messages_holding, List.forall₂_map_right_iff, List.forall₂_same]
    exact fun saying _ => ⟨speaks_role saying.1, Text.cut_longest byteLimit saying.2⟩

/-- A conversation is a window on what was said to it since it was cleared last, whatever its limits
and whatever was done to it. -/
theorem window_of_operations (entryLimit byteLimit : ℕ) (ops : List Operation) :
    Window entryLimit byteLimit (standing ops)
      (ops.foldl Operation.run ⟨entryLimit, byteLimit, []⟩) := by
  rw [run_eq_holding]
  exact window_holding entryLimit byteLimit _

end Conversation

end AssistedShell
