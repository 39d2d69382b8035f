/-! Patterns of names: a star stands for any text, a question mark for a
character, brackets for one of several. Protected characters stand for
themselves. -/

namespace AssistedShell.Script

/-- A character of a pattern, and whether it is protected. -/
structure PatternChar where
  char : Char
  literal : Bool
  deriving DecidableEq, Repr, Inhabited

abbrev Pattern := List PatternChar

namespace Pattern

/-- The inside of brackets, up to the closing one. -/
def bracket (first : Bool) : Pattern → Option (Pattern × Pattern)
  | [] => none
  | p :: r =>
    if p.char = ']' && !p.literal && !first then some ([], r)
    else (bracket false r).map fun (a, b) => (p :: a, b)

/-- The characters of a named class. -/
def inClass (name : String) (c : Char) : Bool :=
  match name with
  | "alpha" => c.isAlpha
  | "digit" => c.isDigit
  | "alnum" => c.isAlphanum
  | "upper" => c.isUpper
  | "lower" => c.isLower
  | "space" => c.isWhitespace
  | "blank" => c == ' ' || c == '\t'
  | "punct" => c.toNat > 32 && c.toNat < 127 && !c.isAlphanum
  | "xdigit" => c.isDigit || ('a' ≤ c && c ≤ 'f') || ('A' ≤ c && c ≤ 'F')
  | _ => false

/-- Whether brackets admit a character: single ones, ranges and classes. -/
def admits (c : Char) : Pattern → Bool
  | [] => false
  | ⟨'[', false⟩ :: ⟨':', _⟩ :: r =>
    let name := String.ofList ((r.takeWhile (·.char ≠ ':')).map (·.char))
    inClass name c || admits c (r.drop (name.length + 2))
  | a :: ⟨'-', false⟩ :: b :: r => (a.char ≤ c && c ≤ b.char) || admits c r
  | a :: r => a.char = c || admits c r
termination_by p => p.length
decreasing_by
  all_goals simp only [List.length_cons, List.length_drop]
  all_goals omega

/-- Whether a pattern matches a text, in at most `fuel` steps. -/
def matchFuel : Nat → Pattern → List Char → Bool
  | 0, _, _ => false
  | _, [], cs => cs.isEmpty
  | fuel + 1, ⟨'*', false⟩ :: p, cs =>
    matchFuel fuel p cs ||
      match cs with
      | [] => false
      | _ :: r => matchFuel fuel (⟨'*', false⟩ :: p) r
  | fuel + 1, ⟨'?', false⟩ :: p, cs =>
    match cs with
    | [] => false
    | _ :: r => matchFuel fuel p r
  | fuel + 1, ⟨'[', false⟩ :: p, cs =>
    let negated := (p.head?.map fun q => !q.literal && (q.char == '!' || q.char == '^')).getD false
    match bracket true (if negated then p.tail else p), cs with
    | some (set, rest), c :: r => (admits c set != negated) && matchFuel fuel rest r
    | some _, [] => false
    | none, '[' :: r => matchFuel fuel p r
    | none, _ => false
  | fuel + 1, q :: p, cs =>
    match cs with
    | c :: r => c = q.char && matchFuel fuel p r
    | [] => false

/-- Whether a pattern matches a whole text. -/
def matchAll (p : Pattern) (cs : List Char) : Bool := matchFuel (p.length + cs.length + 1) p cs

/-- Whether a pattern has a character with a meaning of its own. -/
def isActive (p : Pattern) : Bool :=
  p.any fun q => !q.literal && (q.char == '*' || q.char == '?' || q.char == '[')

/-- The pieces of a pattern between its slashes. -/
def segments : Pattern → List Pattern
  | [] => [[]]
  | q :: r =>
    match segments r with
    | [] => [[q]]
    | s :: ss => if q.char = '/' then [] :: s :: ss else (q :: s) :: ss

/-- The text that a pattern is without its meanings. -/
def plain (p : Pattern) : String := String.ofList (p.map (·.char))

end Pattern

end AssistedShell.Script
