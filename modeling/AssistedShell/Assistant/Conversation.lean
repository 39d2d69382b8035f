import AssistedShell.Assistant.Message
import AssistedShell.Text.Utf8

/-! A conversation: a window on the latest entries, each cut to a number of
bytes. The system's instructions are no entry. -/

namespace AssistedShell

structure Entry where
  origin : Origin
  content : String
  deriving DecidableEq, Repr, Inhabited

/-- The entries, oldest first, and the limits on their number and on the bytes of each. -/
structure Conversation where
  entryLimit : Nat
  byteLimit : Nat
  entries : List Entry := []
  deriving DecidableEq, Repr, Inhabited

namespace Conversation

/-- Adds an entry and drops the oldest ones beyond the limit. -/
def append (c : Conversation) (origin : Origin) (text : String) : Conversation :=
  let entries := c.entries ++ [⟨origin, Text.cut c.byteLimit text⟩]
  { c with entries := entries.drop (entries.length - c.entryLimit) }

def clear (c : Conversation) : Conversation := { c with entries := [] }

def length (c : Conversation) : Nat := c.entries.length

def isEmpty (c : Conversation) : Bool := c.entries.isEmpty

/-- The entries as messages of a request. -/
def messages (c : Conversation) : List Message :=
  c.entries.map fun e => ⟨e.origin.role, e.content⟩

/-- The bytes set aside for one entry. -/
def entryBytes : Nat := 32

/-- The largest allocation that can be asked for at all. -/
def allocationLimit : Nat := UInt64.size / 2 - 1

/-- Room for one entry more than the limit is set aside at the start; this says that so much
can be asked for. What can be asked for is taken to be there: that memory runs short is left out. -/
def Reservable (entryLimit : Nat) : Prop :=
  entryBytes * min (entryLimit + 1) (UInt64.size - 1) ≤ allocationLimit

instance (entryLimit : Nat) : Decidable (Reservable entryLimit) := by
  unfold Reservable; infer_instance

end Conversation

end AssistedShell
