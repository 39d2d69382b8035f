import AssistedShell.Session.Script

/-! A session that reads its command lines from its input, which is no terminal: no
line is edited, and none is interrupted. -/

namespace AssistedShell.Session

variable {σ : Type} (h : Host σ)

/-- Adds a command to the history file; whether that succeeds does not matter. -/
def recordHistory (s : Session σ) (line : String) : Session σ :=
  { s with system := (History.append h s.settings.historyFile line s.system).2 }

/-- Reads and executes lines up to the end of the session or the input. Fails at a command line
that is no text. -/
def converse (lines : LineSource) (s : Session σ) : Except Fault Unit × Session σ :=
  if s.isOver then (.ok (), s)
  else
    let s := s.reapJobs h
    match lines with
    | [] => (.ok (), s)
    | none :: _ => (.error .notText, s)
    | some line :: rest =>
      if line.isAllBlank then converse rest s
      else
        let s := s.recordHistory h line
        let taken := s.parse line rest
        converse taken.rest (perform h (runNested h) line taken.value s).2
termination_by lines.length
decreasing_by
  · simp
  · exact Nat.lt_succ_of_le (length_parse_le _ _ _)

/-- The lines of some bytes. A newline ends a line, and so do a carriage return and a newline. -/
def splitLines : List UInt8 → List (List UInt8)
  | [] => []
  | 10 :: r => [] :: splitLines r
  | 13 :: 10 :: r => [] :: splitLines r
  | b :: r =>
    match splitLines r with
    | [] => [[b]]
    | l :: ls => (b :: l) :: ls

/-- The input's lines, each as text if it is text. -/
def inputLines (input : ByteArray) : LineSource :=
  (splitLines input.toList).map fun l => String.fromUTF8? ⟨l.toArray⟩

/-- A whole dialogue: the startup files on demand, then the lines of the input. -/
def interact (startup : Bool) (s : Session σ) : Except Fault Unit × Session σ :=
  let s := if startup then s.startUp h else s
  if s.isOver then (.ok (), s)
  else
    let (input, system) := h.readInput s.system
    converse h (inputLines input) { s with system }

end AssistedShell.Session
