import AssistedShell.Expansion
import AssistedShell.Pipeline
import AssistedShell.Text.Blank
import AssistedShell.Token.Lexer

/-! Reading pipelines. The whole line is checked before the first here-document
line is asked for, so a faulty line consumes no input. -/

namespace AssistedShell

/-- The lines that stand ready for here-documents and later commands. `none` is
a line that is no text: it ends whatever asks for it. -/
abbrev LineSource := List (Option String)

namespace Pipeline

/-- A token of a single stage. -/
inductive Item where
  | word (text : String)
  | redirect (operator : Redirect)
  deriving DecidableEq, Repr

/-- Puts an item in front of the first stage. -/
def consItem (i : Item) : List (List Item) → List (List Item)
  | [] => [[i]]
  | s :: ss => (i :: s) :: ss

/-- The items between the pipes; none if a background mark is among them. -/
def segments? : List Token → Option (List (List Item))
  | [] => some [[]]
  | .background :: _ => none
  | .pipe :: r => (segments? r).map ([] :: ·)
  | .word w :: r => (segments? r).map (consItem (.word w))
  | .redirect op :: r => (segments? r).map (consItem (.redirect op))

/-- Where a stage reads, before here-documents are read. -/
inductive PendingInput where
  | file (path : String)
  | delimiter (text : String)
  deriving DecidableEq, Repr

/-- A stage before its here-document is read. -/
structure Draft where
  words : List String := []
  input : Option PendingInput := none
  output : Option OutputTarget := none
  deriving DecidableEq, Repr

/-- Notes the target of a redirection; a later one replaces an earlier one. -/
def Draft.redirect (d : Draft) (op : Redirect) (target : String) : Draft :=
  match op with
  | .input => { d with input := some (.file target) }
  | .hereDoc => { d with input := some (.delimiter target) }
  | .output => { d with output := some ⟨target, false⟩ }
  | .append => { d with output := some ⟨target, true⟩ }

/-- The fault of a redirection that no word follows. -/
def missing : Redirect → SyntaxFault
  | .hereDoc => .missingDelimiter
  | op => .missingTarget op

/-- Adds the items of a stage to a draft. -/
def Draft.read : Draft → List Item → Except SyntaxFault Draft
  | d, [] => .ok d
  | d, .word w :: r => Draft.read { d with words := d.words ++ [w] } r
  | d, .redirect op :: .word w :: r => Draft.read (d.redirect op w) r
  | _, .redirect op :: _ => .error (missing op)

/-- The draft of a stage, which must have a word of its own. -/
def draft (items : List Item) : Except SyntaxFault Draft :=
  match Draft.read {} items with
  | .error e => .error e
  | .ok d => if d.words.isEmpty then .error .emptyCommand else .ok d

/-- The drafts of all stages and the background mark; the first faulty stage decides. -/
def drafts (tokens : List Token) : Except SyntaxFault (List Draft × Bool) :=
  let background := tokens.getLast? == some .background
  let tokens := if background then tokens.dropLast else tokens
  match segments? tokens with
  | none => .error .misplacedBackground
  | some ss =>
    match ss.mapM draft with
    | .error e => .error e
    | .ok ds => .ok (ds, background)

/-- A line without the carriage returns and newlines at its end. -/
def chomp (s : String) : String :=
  String.ofList (Text.dropEndWhile (fun c => c == '\r' || c == '\n') s.toList)

/-- What reading consumed: the rest of the source and the number of lines asked for. -/
structure Taken (α : Type) where
  value : α
  rest : LineSource
  requests : Nat

/-- The text of a here-document: the lines before the first one equal to the delimiter, or
all lines when there is none. -/
def readBody (delimiter : String) : LineSource → Taken String
  | [] => ⟨"", [], 1⟩
  | none :: r => ⟨"", r, 1⟩
  | some l :: r =>
    if chomp l = delimiter then ⟨"", r, 1⟩
    else
      let t := readBody delimiter r
      ⟨chomp l ++ "\n" ++ t.value, t.rest, t.requests + 1⟩

/-- Reads what a draft's input still lacks. -/
def PendingInput.complete (i : Option PendingInput) (source : LineSource) :
    Taken (Option InputSource) :=
  match i with
  | none => ⟨none, source, 0⟩
  | some (.file p) => ⟨some (.file p), source, 0⟩
  | some (.delimiter d) =>
    let t := readBody d source
    ⟨some (.hereDoc t.value), t.rest, t.requests⟩

/-- The stages of the drafts, their here-documents read in order. -/
def complete : List Draft → LineSource → Taken (List Stage)
  | [], source => ⟨[], source, 0⟩
  | d :: ds, source =>
    match d.words with
    | [] => complete ds source
    | name :: arguments =>
      let i := PendingInput.complete d.input source
      let t := complete ds i.rest
      ⟨⟨name, arguments, i.value, d.output⟩ :: t.value, t.rest, i.requests + t.requests⟩

/-- Reads a pipeline from its tokens; no tokens, no pipeline. -/
def ofTokens (tokens : List Token) (source : LineSource) :
    Taken (Except SyntaxFault (Option Pipeline)) :=
  if tokens.isEmpty then ⟨.ok none, source, 0⟩
  else
    match drafts tokens with
    | .error e => ⟨.error e, source, 0⟩
    | .ok (ds, background) =>
      let t := complete ds source
      ⟨.ok (some ⟨t.value, background⟩), t.rest, t.requests⟩

/-- Expands a line and reads its pipeline. -/
def ofLine (lookup : String → Option String) (line : String) (source : LineSource) :
    Taken (Except SyntaxFault (Option Pipeline)) :=
  ofTokens (Token.ofLine (Expansion.line lookup line)) source

/-- The prompt of a here-document line. -/
def hereDocPrompt : String := "> "

theorem length_readBody_le (delimiter : String) (source : LineSource) :
    (readBody delimiter source).rest.length ≤ source.length := by
  induction source with
  | nil => simp [readBody]
  | cons l r ih =>
    cases l with
    | none => simp [readBody]
    | some l =>
      simp only [readBody]
      split
      · simp
      · simp
        omega

theorem length_complete_le (ds : List Draft) (source : LineSource) :
    (complete ds source).rest.length ≤ source.length := by
  induction ds generalizing source with
  | nil => simp [complete]
  | cons d ds ih =>
    simp only [complete]
    split
    · exact ih source
    · refine Nat.le_trans (ih _) ?_
      unfold PendingInput.complete
      split
      · exact Nat.le_refl _
      · exact Nat.le_refl _
      · exact length_readBody_le _ _

/-- Reading a pipeline leaves no more lines than there were. -/
theorem length_ofTokens_le (tokens : List Token) (source : LineSource) :
    (ofTokens tokens source).rest.length ≤ source.length := by
  unfold ofTokens
  split
  · exact Nat.le_refl _
  · split
    · exact Nat.le_refl _
    · exact length_complete_le _ _

theorem length_ofLine_le (lookup : String → Option String) (line : String) (source : LineSource) :
    (ofLine lookup line source).rest.length ≤ source.length :=
  length_ofTokens_le _ _

end Pipeline

end AssistedShell
