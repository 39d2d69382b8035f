import AssistedShell.Environment

/-! The key that the completion service asks for. A usable key begins with
`sk-` and has at least five printable characters; all others are dropped. -/

namespace AssistedShell

structure Credential where
  key : String
  deriving DecidableEq, Inhabited

/-- Why a variable holds no usable key. -/
inductive CredentialFault where
  | missing (name : String)
  | badStart (name : String)
  | tooShort (name : String)
  deriving DecidableEq, Repr, Inhabited

def CredentialFault.message : CredentialFault → String
  | .missing name => name ++ " is not set"
  | .badStart name => name ++ " does not look like an API key (expected an `sk-` prefix)"
  | .tooShort name => name ++ " is too short"

namespace Credential

/-- The blank and the visible characters of ASCII. -/
def isPrintable (c : Char) : Bool := ' ' ≤ c && c ≤ '~'

/-- How every key begins. -/
def mark : List Char := "sk-".toList

def leastLength : Nat := 5

/-- Reads a key from the text of the variable `name`. -/
def ofText (name text : String) : Except CredentialFault Credential :=
  if mark.isPrefixOf text.toList then
    let kept := text.toList.filter isPrintable
    if kept.length < leastLength then .error (.tooShort name) else .ok ⟨String.ofList kept⟩
  else .error (.badStart name)

/-- Reads a key from the variable `name`; an empty one counts as unset. -/
def ofEnvironment (env : Environment) (name : String) : Except CredentialFault Credential :=
  match env.get? name with
  | none | some "" => .error (.missing name)
  | some text => ofText name text

/-- What may be shown of a key. -/
def redacted (_ : Credential) : String := "ApiKey(<redacted>)"

end Credential

end AssistedShell
