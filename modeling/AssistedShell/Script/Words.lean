import AssistedShell.Script.Arithmetic
import AssistedShell.Script.Interpreter
import AssistedShell.Text.Blank
import AssistedShell.Text.Utf8
import AssistedShell.Script.Pattern

/-! What words stand for: parameters, the output of commands, numbers; then
fields, and the names of files that match. -/

namespace AssistedShell.Script

/-- Where a character of a word comes from: quotes, the script, or a value. -/
inductive Provenance where
  | quoted | literal | value
  deriving DecidableEq, Repr, Inhabited

/-- A piece of an expanded word: a character, a place where quotes stood, or a border of fields. -/
inductive Atom where
  | char (c : Char) (provenance : Provenance)
  | mark
  | border
  deriving DecidableEq, Repr, Inhabited

def atoms (p : Provenance) (s : String) : List Atom := s.toList.map (.char · p)

def valueAtoms (quoted : Bool) (s : String) : List Atom :=
  atoms (if quoted then .quoted else .value) s

def textOf (as : List Atom) : String :=
  String.ofList (as.filterMap fun a =>
    match a with
    | .char c _ => some c
    | _ => none)

def patternOf (as : List Atom) : Pattern :=
  as.filterMap fun a =>
    match a with
    | .char c p => some ⟨c, p == .quoted⟩
    | _ => none

/-- The text without the newlines at its end. -/
def dropNewlines (s : String) : String :=
  String.ofList (s.toList.reverse.dropWhile (· == '\n')).reverse

/-- All ways to cut a text in two, the shortest front first. -/
def cuts (cs : List Char) : List (List Char × List Char) :=
  (List.range (cs.length + 1)).map fun n => (cs.take n, cs.drop n)

/-- A value without a part at its end or front that matches a pattern. -/
def trim (kind : Trim) (p : Pattern) (value : List Char) : List Char :=
  match kind with
  | .shortFront => (((cuts value).find? fun (a, _) => p.matchAll a).map (·.2)).getD value
  | .longFront => (((cuts value).reverse.find? fun (a, _) => p.matchAll a).map (·.2)).getD value
  | .shortBack => (((cuts value).reverse.find? fun (_, b) => p.matchAll b).map (·.1)).getD value
  | .longBack => (((cuts value).find? fun (_, b) => p.matchAll b).map (·.1)).getD value

/-- The output of a command that runs in a process of its own. -/
def outputOf (self : Recursion) (body : Command) : Run String := do
  let (r, w) ← Run.machine fun s => s.pipe
  let _ ← apart self do
    modify fun i => { i with context := i.context.setFile 1 w, lenient := false }
    self.run body
  let bytes ← Run.machine fun s =>
    match s.pending r with
    | .ok (data, _) => (data.bytes, s)
    | .error _ => (.empty, s)
  return dropNewlines (Text.decodeLossy bytes)

/-- The parameters, each a field of its own. -/
def parameterFields (quoted : Bool) (ps : List String) : List Atom :=
  let fields := ps.map fun p => (if quoted then [Atom.mark] else []) ++ valueAtoms quoted p
  (fields.intersperse [.border]).flatten

/-- The number that an expression gives. -/
def arithmetic (text : String) : Run String := do
  let i ← get
  match Arithmetic.evaluate text.toList fun x => (i.valueOf? x).bind (·.value) with
  | .error (.value t) => Run.abort (Arithmetic.Fault.value t).message
  | .error e => Run.abort ("arithmetic expression: " ++ e.message ++ ": \"" ++ text ++ "\"")
  | .ok (v, assigned) =>
    for (x, n) in assigned.reverse do Run.assign x (toString n)
    return toString v

/-- The value of a parameter, which may have to be set. -/
def valueOrEmpty (name : String) : Run String := do
  let i ← get
  match i.value? name with
  | some v => return v
  | none =>
    if i.has .nounset && name ≠ "@" && name ≠ "*" then Run.abort (name ++ ": parameter not set")
    return ""

/-- What a piece of a word stands for. -/
def expandPiece (self : Recursion) : Piece → Run (List Atom)
  | .text t quoted => return (if quoted then .mark :: atoms .quoted t else atoms .literal t)
  | .parameter name quoted => do
    let i ← get
    if name = "@" || (name = "*" && !quoted) then return parameterFields quoted i.parameters
    return (if quoted then [.mark] else []) ++ valueAtoms quoted (← valueOrEmpty name)
  | .length name quoted => do
    return valueAtoms quoted (toString (← valueOrEmpty name).utf8ByteSize)
  | .fallback name kind emptyToo word quoted => do
    let v := (← get).value? name
    let lacking := v.isNone || (emptyToo && v == some "")
    match kind with
    | .use => if lacking then expandPieces word else return valueAtoms quoted (v.getD "")
    | .replace => if lacking then return [] else expandPieces word
    | .assign =>
      if !lacking then return valueAtoms quoted (v.getD "")
      let t := textOf (← expandPieces word)
      Run.assign name t
      return valueAtoms quoted t
    | .complain =>
      if !lacking then return valueAtoms quoted (v.getD "")
      let t := textOf (← expandPieces word)
      let standard := if emptyToo then "parameter not set or null" else "parameter not set"
      Run.abort (name ++ ": " ++ (if t.isEmpty then standard else t))
  | .trimmed name kind pattern quoted => do
    let v ← valueOrEmpty name
    let p := patternOf (← expandPieces pattern)
    return valueAtoms quoted (String.ofList (trim kind p v.toList))
  | .substitution body quoted => do
    return (if quoted then [.mark] else []) ++ valueAtoms quoted (← outputOf self body)
  | .arithmetic e quoted => do
    return valueAtoms quoted (← arithmetic (textOf (← expandPieces e)))
  | .broken => Run.abort "Bad substitution"
where
  /-- What several pieces stand for. -/
  expandPieces : List Piece → Run (List Atom)
    | [] => return []
    | p :: ps => return (← expandPiece self p) ++ (← expandPieces ps)

def expandAtoms (self : Recursion) (w : Word) : Run (List Atom) := expandPiece.expandPieces self w

/-- A tilde at the front, followed by a slash or nothing, as the home directory. -/
def expandHome (home : Option String) (as : List Atom) : List Atom :=
  match as with
  | .char '~' .literal :: r =>
    match r.head? with
    | none | some (.char '/' _) => (home.map fun h => .mark :: atoms .quoted h ++ r).getD as
    | _ => as
  | _ => as

/-- The fields of an expanded word; the field so far stands last character first. -/
def fieldsFrom (ifs : List Char) (now : Option (List Atom)) : List Atom → List (List Atom)
  | [] => (now.map List.reverse).toList
  | .border :: r => (now.map List.reverse).toList ++ fieldsFrom ifs none r
  | .mark :: r => fieldsFrom ifs (some (now.getD [])) r
  | .char c p :: r =>
    if p == .value && ifs.contains c then
      if c == ' ' || c == '\t' || c == '\n' then
        (now.map List.reverse).toList ++ fieldsFrom ifs none r
      else (now.getD []).reverse :: fieldsFrom ifs none r
    else fieldsFrom ifs (some (.char c p :: now.getD [])) r

open Machine (Disk NodeId) in
/-- The paths that match the remaining segments of a pattern, below a directory. -/
def paths (d : Disk) (here : NodeId) (done : String) : List Pattern → List String
  | [] => [done]
  | seg :: rest =>
    let slash := if rest.isEmpty then "" else "/"
    if seg.isEmpty then paths d here (done ++ slash) rest
    else if !seg.isActive then
      let path := done ++ seg.plain
      if d.present here path then paths d here (path ++ slash) rest else []
    else
      let folder := if done = "" then "." else done
      match d.find here true folder with
      | .error _ => []
      | .ok (id, _) =>
        let names := ((d.directory? id).map (·.1)).getD []
        let dotted := (seg.head?.map (·.char)) == some '.'
        let names := names.map (·.1)
        let names := if dotted then "." :: ".." :: names else names
        let names := names.filter fun n =>
          (n.toList.head? != some '.' || dotted) && seg.matchAll n.toList
        let names := names.mergeSort fun a b => a ≤ b
        let names := if rest.isEmpty then names else
          names.filter fun n => d.isDirectoryAt here (done ++ n)
        names.flatMap fun n => paths d here (done ++ n ++ slash) rest

/-- The names that a field stands for: those that match it, or itself. -/
def matching (field : List Atom) : Run (List String) := do
  let p := patternOf field
  if !p.isActive || (← get).has .noglob then return [textOf field]
  let c ← Run.context
  let found ← Run.machine fun s => (paths s.disk c.directory "" p.segments, s)
  return if found.isEmpty then [textOf field] else found

/-- The fields of a word. -/
def expandFields (self : Recursion) (w : Word) : Run (List String) := do
  let as ← expandAtoms self w
  let i ← get
  let as := expandHome (i.value? "HOME") as
  let mut out : List String := []
  for f in fieldsFrom i.separators none as do
    out := out ++ (← matching f)
  return out

/-- The fields of several words. -/
def expandAll (self : Recursion) (ws : List Word) : Run (List String) := do
  let mut out : List String := []
  for w in ws do
    out := out ++ (← expandFields self w)
  return out

/-- A word as one text, neither split nor matched. -/
def expandText (self : Recursion) (w : Word) : Run String := do
  let as ← expandAtoms self w
  return textOf (expandHome ((← get).value? "HOME") as)

end AssistedShell.Script
