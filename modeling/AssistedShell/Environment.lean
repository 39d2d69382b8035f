/-! Environment variables. The environment is a list of entries `NAME=VALUE` in
the order in which the names were first set. -/

namespace AssistedShell

/-- One variable and its value. -/
structure Binding where
  name : String
  value : String
  deriving DecidableEq, Repr, Inhabited

/-- The variables of a process. -/
structure Environment where
  bindings : List Binding := []
  deriving DecidableEq, Repr, Inhabited

namespace Binding

/-- The written entry. -/
def entry (b : Binding) : String := b.name ++ "=" ++ b.value

/-- What stands after `name` and an equals sign, if the written entry begins so. -/
def after? (b : Binding) (name : String) : Option String :=
  if b.name = name then some b.value
  else
    let key := (name ++ "=").toList
    let text := b.entry.toList
    if name.contains '=' && key.isPrefixOf text then some (String.ofList (text.drop key.length))
    else none

end Binding

namespace Environment

/-- The value of a variable. The empty name has none. -/
def get? (env : Environment) (name : String) : Option String :=
  if name = "" then none else env.bindings.findSome? (·.after? name)

/-- Gives a variable a value. A new name comes last, an old one keeps its place. -/
def set (env : Environment) (name value : String) : Environment :=
  if env.bindings.any (·.name = name) then
    ⟨env.bindings.map fun b => if b.name = name then ⟨name, value⟩ else b⟩
  else ⟨env.bindings ++ [⟨name, value⟩]⟩

/-- Forgets a variable. -/
def unset (env : Environment) (name : String) : Environment :=
  ⟨env.bindings.filter (·.name ≠ name)⟩

/-- What a variable's name and value must be for the system to take them. -/
def Settable (name value : String) : Prop :=
  name ≠ "" ∧ '=' ∉ name.toList ∧ '\x00' ∉ name.toList ∧ '\x00' ∉ value.toList

instance (name value : String) : Decidable (Settable name value) := by
  unfold Settable; infer_instance

/-- The bindings in the order of their names. -/
def sorted (env : Environment) : List Binding :=
  env.bindings.mergeSort fun a b => a.name < b.name || (a.name == b.name && a.value ≤ b.value)

/-- The home directory that the environment names; an empty name is none. -/
def home? (env : Environment) : Option String :=
  (env.get? "HOME").filter (· ≠ "")

end Environment

end AssistedShell
