/-! Paths as text: joining, components, and what remains below another path. -/

namespace AssistedShell.Path

/-- The parts of a path between its slashes, empty ones included. -/
def split : List Char → List (List Char)
  | [] => [[]]
  | c :: r =>
    match split r with
    | [] => [[c]]
    | s :: ss => if c = '/' then [] :: s :: ss else (c :: s) :: ss

/-- The parts with one slash between neighbours. -/
def glue : List (List Char) → List Char
  | [] => []
  | [s] => s
  | s :: t :: r => s ++ '/' :: glue (t :: r)

def isAbsolute (p : List Char) : Bool := p.head? == some '/'

/-- A part that names nothing by itself. -/
def isIdle (s : List Char) : Bool := s == [] || s == ['.']

/-- What a path says step by step. -/
inductive Component where
  | root
  | here
  | up
  | name (text : List Char)
  deriving DecidableEq, Repr

/-- The component of a part that is not idle. -/
def Component.ofPart (s : List Char) : Component :=
  if s = ['.', '.'] then .up else .name s

/-- The components after the first: idle parts say nothing. -/
def inner (parts : List (List Char)) : List Component :=
  (parts.filter (!isIdle ·)).map Component.ofPart

/-- The components of a path. A dot counts only where a relative path begins with it. -/
def components (p : List Char) : List Component :=
  if isAbsolute p then .root :: inner (split p)
  else
    match split p with
    | ['.'] :: r => .here :: inner r
    | r => inner r

/-- The path of `p` as seen from `base`. -/
def join (base p : List Char) : List Char :=
  if isAbsolute p || base == [] then p
  else if base.getLast? == some '/' then base ++ p
  else base ++ '/' :: p

/-- Parts without the idle ones at either end. -/
def core (parts : List (List Char)) : List (List Char) :=
  ((parts.dropWhile isIdle).reverse.dropWhile isIdle).reverse

/-- The parts left after the given inner components, if they come first. -/
def stripInner : List Component → List (List Char) → Option (List (List Char))
  | [], parts => some parts
  | _ :: _, [] => none
  | c :: cs, s :: parts =>
    if isIdle s then stripInner (c :: cs) parts
    else if Component.ofPart s = c then stripInner cs parts
    else none

/-- What remains of a path below another one, by components. -/
def below? (p base : List Char) : Option (List Char) :=
  let rest :=
    match components base with
    | .root :: cs => if isAbsolute p then stripInner cs (split p) else none
    | .here :: cs =>
      if isAbsolute p then none
      else
        match split p with
        | ['.'] :: r => stripInner cs r
        | _ => none
    | cs =>
      if isAbsolute p then none
      else
        match split p with
        | ['.'] :: r => if cs.isEmpty then some (['.'] :: r) else none
        | r => stripInner cs r
  rest.map fun parts => glue (core parts)

/-- The path without its last component; none if there is none to drop. -/
def parent? (p : List Char) : Option (List Char) :=
  let parts := (split p).reverse.dropWhile isIdle
  let absolute := isAbsolute p
  let dotted := !absolute && (split p).head? == some ['.']
  match parts with
  | [] => if dotted then some [] else none
  | _ :: r =>
    match (r.dropWhile isIdle).reverse with
    | [] => some (if absolute then ['/'] else if dotted then ['.'] else [])
    | kept => some (glue kept)

/-- The path of `p` from the directory `base`, with a leading dot and doubled slashes left
out unless `p` is absolute. -/
def rebase (base p : List Char) : List Char :=
  if isAbsolute p then p
  else (inner (split p)).foldl (fun b c =>
    match c with
    | .up => join b ['.', '.']
    | .name s => join b s
    | _ => b) base

end AssistedShell.Path

namespace AssistedShell

/-- The path of `p` as seen from `base`. -/
def joinPath (base p : String) : String := String.ofList (Path.join base.toList p.toList)

/-- The path without its last component. -/
def parentPath? (p : String) : Option String := (Path.parent? p.toList).map String.ofList

end AssistedShell
