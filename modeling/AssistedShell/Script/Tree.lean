/-! Scripts as the system's command interpreter understands them. -/

namespace AssistedShell.Script

/-- What a braced parameter asks for besides its value. -/
inductive Trim where
  | shortFront | longFront | shortBack | longBack
  deriving DecidableEq, Repr, Inhabited

/-- What stands in for a parameter without a value, or with one. -/
inductive Fallback where
  | use | assign | complain | replace
  deriving DecidableEq, Repr, Inhabited

inductive RedirectionKind where
  | input | output | append | duplicate | both
  /-- Text that follows in the script, by its number. -/
  | hereDoc (body : Nat)
  deriving DecidableEq, Repr, Inhabited

mutual

/-- A part of a word; `quoted` parts are not split and match literally. -/
inductive Piece where
  | text (text : String) (quoted : Bool)
  | parameter (name : String) (quoted : Bool)
  | length (name : String) (quoted : Bool)
  | fallback (name : String) (kind : Fallback) (emptyToo : Bool) (word : List Piece) (quoted : Bool)
  | trimmed (name : String) (kind : Trim) (pattern : List Piece) (quoted : Bool)
  | substitution (body : Command) (quoted : Bool)
  | arithmetic (expression : List Piece) (quoted : Bool)
  /-- A reference that cannot be understood. -/
  | broken

inductive Redirection where
  | mk (descriptor : Nat) (kind : RedirectionKind) (word : List Piece)

inductive Command where
  | nothing
  | simple (assignments : List (String × List Piece)) (words : List (List Piece))
      (redirections : List Redirection) (line : Nat)
  | pipeline (negated : Bool) (stages : List Command)
  | both (a b : Command)
  | either (a b : Command)
  | sequence (a b : Command)
  | background (body : Command)
  | subshell (body : Command)
  | group (body : Command)
  | redirected (body : Command) (redirections : List Redirection) (line : Nat)
  | conditional (test yes no : Command)
  | loop (untilTrue : Bool) (test body : Command)
  | each (name : String) (words : Option (List (List Piece))) (body : Command)
  | select (word : List Piece) (clauses : List (List (List Piece) × Command))
  | define (name : String) (body : Command)

end

abbrev Word := List Piece

instance : Inhabited Piece := ⟨.broken⟩

instance : Inhabited Command := ⟨.nothing⟩

/-- Commands one after another. -/
def Command.andThen (a b : Command) : Command :=
  match a with
  | .nothing => b
  | a => .sequence a b

end AssistedShell.Script
