import AssistedShell.Machine.Tool.Basic
import AssistedShell.Text.Blank
import AssistedShell.Text.Numeral

/-! Tools that look at the disk and change it: `ls`, `mkdir`, `rmdir`, `rm`,
`touch` and `ln`. -/

namespace AssistedShell.Machine.Tool

/-- Changes the disk, or says why not. -/
def onDisk (f : Disk → Except Errno Disk) : Act (Option Errno) := fun s =>
  match f s.disk with
  | .ok d => (none, { s with disk := d })
  | .error e => (some e, s)

/-- Does something for each operand, with a complaint for each that fails. -/
def eachOperand (c : Context) (operands : List String)
    (perform : String → Act (Option String)) : Act Termination := do
  let mut status := 0
  for o in operands do
    match ← perform o with
    | none => pure ()
    | some m =>
      report c m
      status := 1
  return c.exit status

/-- The mode that octal digits write. -/
def modeOf? (s : String) : Option Nat :=
  if s.isEmpty then none else (Text.number? 8 s.toList).filter (· ≤ 0o7777)

/-- Makes directories one after another. Those above the last one may be there already; the modes
of new ones say so if asked. -/
def makeEach (c : Context) (a : Arguments) (mode? : Option Nat) : List String → Act (Option String)
  | [] => return none
  | o :: os => do
    let isLast := os.isEmpty
    let s ← get
    if a.has 'p' && s.disk.isDirectoryAt c.directory o then makeEach c a mode? os
    else
      let r ← onDisk fun d => do
        let d ← d.makeDirectory c.directory o 0o777
        match (if isLast then mode? else none), d.find c.directory true o with
        | some mode, .ok (id, _) => return d.setMode id mode
        | _, _ => return d
      match r with
      | none =>
        if a.has 'v' then c.say (c.words.headD "" ++ ": created directory " ++ quote o ++ "\n")
        makeEach c a mode? os
      | some e =>
        let e := if e == .exists && !isLast then Errno.notDirectory else e
        return some ("cannot create directory " ++ quote o ++ ": " ++ e.text)

/-- The paths to the parts of a path, the first part first. -/
def pathsTo (path : String) : List String :=
  let parts := Text.splitAll (· == '/') path.toList
  let rec fronts : List (List Char) → List (List Char)
    | [] => []
    | [p] => [p]
    | p :: q :: r => p :: (fronts (q :: r)).map fun f => p ++ '/' :: f
  ((fronts parts).filter fun p => !p.isEmpty && p.getLast? != some '/').map String.ofList

def mkdir (c : Context) (args : List String) : Act Termination := do
  let known : Known := {
    flags := "pv"
    valued := "m"
    names := [("parents", 'p'), ("verbose", 'v'), ("mode", 'm')] }
  match known.read args with
  | .error m => usage c m 1
  | .ok a =>
    if a.operands.isEmpty then return ← missingOperand c 1
    let mode? := (a.value? 'm').bind modeOf?
    if mode?.isNone && a.has 'm' then
      report c ("invalid mode " ++ quote ((a.value? 'm').getD ""))
      return c.exit 1
    eachOperand c a.operands fun o =>
      makeEach c a mode? (if a.has 'p' && o ≠ "" then pathsTo o else [o])

/-- Removes directories from the last to the first, and says which could not be removed. -/
def removeEach (c : Context) (a : Arguments) : List String → Act (Option String)
  | [] => return none
  | o :: os => do
    if a.has 'v' then c.say (c.words.headD "" ++ ": removing directory, " ++ quote o ++ "\n")
    match ← onDisk fun d => d.removeDirectory c.directory o with
    | none => removeEach c a os
    | some e =>
      if a.has 'i' && e == .notEmpty then return none
      return some ("failed to remove directory " ++ quote o ++ ": " ++ e.text)

def rmdir (c : Context) (args : List String) : Act Termination := do
  let known : Known := {
    flags := "pv"
    names := [("parents", 'p'), ("verbose", 'v'), ("ignore-fail-on-non-empty", 'i')] }
  match known.read args with
  | .error m => usage c m 1
  | .ok a =>
    if a.operands.isEmpty then return ← missingOperand c 1
    eachOperand c a.operands fun o => do
      if a.has 'v' then c.say (c.words.headD "" ++ ": removing directory, " ++ quote o ++ "\n")
      match ← onDisk fun d => d.removeDirectory c.directory o with
      | some e =>
        if a.has 'i' && e == .notEmpty then return none
        return some ("failed to remove " ++ quote o ++ ": " ++ e.text)
      | none => if a.has 'p' then removeEach c a (pathsTo o).reverse.tail else return none

/-- Removes a directory and all below it; what was removed is told in order. -/
def removeTree (here : NodeId) : Nat → String → Disk × List String →
    Except Errno (Disk × List String)
  | 0, _, _ => .error .linkLoop
  | fuel + 1, path, (d, told) =>
    match d.find here false path with
    | .error e => .error e
    | .ok (id, _) =>
      match d.directory? id with
      | none => (d.removeFile here path).map (·, told ++ ["removed " ++ quote path])
      | some (entries, _) =>
        let below := entries.foldlM
          (fun acc (name, _) => removeTree here fuel (joinPath path name) acc) (d, told)
        match below with
        | .error e => .error e
        | .ok (d, told) =>
          (d.removeDirectory here path).map (·, told ++ ["removed directory " ++ quote path])

def rm (c : Context) (args : List String) : Act Termination := do
  let known : Known := {
    flags := "rRfdv"
    names := [("recursive", 'r'), ("force", 'f'), ("dir", 'd'), ("verbose", 'v')] }
  match known.read args with
  | .error m => usage c m 1
  | .ok a =>
    if a.operands.isEmpty then
      if a.has 'f' then return c.exit 0
      return ← missingOperand c 1
    let whole := a.has 'r' || a.has 'R'
    eachOperand c a.operands fun o => do
      let last := baseName (String.ofList (o.toList.reverse.dropWhile (· == '/')).reverse)
      if whole && (last = "." || last = "..") then
        return some ("refusing to remove '.' or '..' directory: skipping " ++ quote o)
      let s ← get
      let isFolder := match s.disk.find c.directory false o with
        | .ok (_, n) => n.isDirectory
        | .error _ => false
      let r := if whole then removeTree c.directory (s.disk.next + 1) o (s.disk, [])
        else if a.has 'd' && isFolder then
          (s.disk.removeDirectory c.directory o).map (·, ["removed directory " ++ quote o])
        else (s.disk.removeFile c.directory o).map (·, ["removed " ++ quote o])
      match r with
      | .ok (disk, told) =>
        set { s with disk }
        if a.has 'v' then c.say (String.join (told.map (· ++ "\n")))
        return none
      | .error e =>
        if a.has 'f' && (e == .noEntry || e == .notDirectory) then return none
        return some ("cannot remove " ++ quote o ++ ": " ++ e.text)

def touch (c : Context) (args : List String) : Act Termination := do
  let known : Known := {
    flags := "acmh"
    valued := "drt"
    names := [("no-create", 'c'), ("date", 'd'), ("reference", 'r'), ("no-dereference", 'h')] }
  match known.read args with
  | .error m => usage c m 1
  | .ok a =>
    if a.operands.isEmpty then return ← usage c "missing file operand" 1
    if let some r := a.value? 'r' then
      if let .error e := (← get).disk.find c.directory true r then
        report c ("failed to get attributes of " ++ quote r ++ ": " ++ e.text)
        return c.exit 1
    eachOperand c a.operands fun o => do
      let r ← onDisk fun d =>
        match d.find c.directory true o with
        | .ok _ => .ok d
        | .error .noEntry =>
          if a.has 'c' then .ok d
          else (d.openFile c.directory o { write := true, create := true }).map (·.2)
        | .error e => .error e
      return r.map fun e =>
        let e := if e == .isDirectory then Errno.noEntry else e
        let isThere := e == .notDirectory && o.endsWith "/"
        (if isThere then "setting times of " else "cannot touch ") ++ quote o ++ ": " ++ e.text

def ln (c : Context) (args : List String) : Act Termination := do
  let known : Known := {
    flags := "sfnvT"
    valued := "t"
    names := [("symbolic", 's'), ("force", 'f'), ("no-dereference", 'n'), ("verbose", 'v'),
      ("no-target-directory", 'T'), ("target-directory", 't')] }
  match known.read args with
  | .error m => usage c m 1
  | .ok a =>
    let s ← get
    let isFolder := fun path : String =>
      match s.disk.find c.directory (!a.has 'n') path with
      | .ok (_, n) => n.isDirectory
      | .error _ => false
    match a.operands.reverse, a.value? 't' with
    | [], _ => usage c "missing file operand" 1
    | operands, some folder =>
      if isFolder folder then linkEach c a (some folder) operands.reverse
      else
        let e := if s.disk.present c.directory folder then Errno.notDirectory else .noEntry
        report c ("target directory " ++ quote folder ++ ": " ++ e.text)
        return c.exit 1
    | [one], none =>
      if a.has 'T' then usage c ("missing destination file operand after " ++ quote one) 1
      else linkEach c a (some ".") [one]
    | target :: sources, none =>
      if a.has 'T' && sources.length > 1 then
        usage c ("extra operand " ++ quote target) 1
      else if isFolder target && !a.has 'T' then linkEach c a (some target) sources.reverse
      else if sources.length > 1 then
        let e := if s.disk.present c.directory target then Errno.notDirectory else .noEntry
        report c ("target " ++ quote target ++ ": " ++ e.text)
        return c.exit 1
      else linkEach c a none [sources.headD "", target]
where
  /-- Makes links in a directory, or one link under a given path. -/
  linkEach (c : Context) (a : Arguments) (folder : Option String) (sources : List String) :
      Act Termination :=
    match folder, sources with
    | some folder, _ => eachOperand c sources fun o => linkAs c a o (joinPath folder (baseName o))
    | none, o :: path :: _ => eachOperand c [o] fun o => linkAs c a o path
    | none, _ => return c.exit 0
  /-- Makes one link. -/
  linkAs (c : Context) (a : Arguments) (o path : String) : Act (Option String) := do
    let s ← get
    if !a.has 's' then
      match s.disk.find c.directory false o with
      | .error e => return some ("failed to access " ++ quote o ++ ": " ++ e.text)
      | .ok (_, n) =>
        if n.isDirectory then
          return some (quoteIfNeeded o ++ ": hard link not allowed for directory")
    let r ← onDisk fun d => do
      let d := if a.has 'f' then (d.removeFile c.directory path).toOption.getD d else d
      if a.has 's' then d.symlink c.directory o path else d.hardLink c.directory o path
    let kind := if a.has 's' then "symbolic" else "hard"
    match r with
    | none =>
      if a.has 'v' then
        c.say (quote path ++ (if a.has 's' then " -> " else " => ") ++ quote o ++ "\n")
      return none
    | some e =>
      let goal := if a.has 's' || e == .exists then "" else " => " ++ quote o
      return some ("failed to create " ++ kind ++ " link " ++ quote path ++ goal ++ ": " ++ e.text)

/-! ### Listing -/

/-- The names of a directory that a listing shows, in byte order. -/
def listed (a : Arguments) (entries : List (String × NodeId)) : List String :=
  let names := entries.map (·.1)
  let names :=
    if a.has 'a' then "." :: ".." :: names
    else if a.has 'A' then names
    else names.filter fun n => n.toList.head? != some '.'
  let names := names.mergeSort fun x y => x ≤ y
  if a.has 'r' then names.reverse else names

def marked (d : Disk) (a : Arguments) (here : NodeId) (path name : String) : String :=
  match d.find here false path with
  | .ok (_, n) =>
    let mark :=
      if n.isDirectory then (if a.has 'p' || a.has 'F' then "/" else "")
      else if !a.has 'F' then ""
      else
        match n.content with
        | .link _ | .anchor _ => "@"
        | _ => if n.isProgram then "*" else ""
    name ++ mark
  | .error _ => name

def ls (c : Context) (args : List String) : Act Termination := do
  let known : Known := {
    flags := "aA1dCprFUq"
    names := [("all", 'a'), ("almost-all", 'A'), ("directory", 'd'), ("reverse", 'r')] }
  match known.read args with
  | .error m => usage c m 2
  | .ok a =>
    let operands := if a.operands.isEmpty then ["."] else a.operands.mergeSort fun x y => x ≤ y
    let operands := if a.has 'r' then operands.reverse else operands
    let s ← get
    let mut status := 0
    let mut plain : List String := []
    let mut folders : List (String × List (String × NodeId) × NodeId) := []
    for o in operands do
      match s.disk.find c.directory true o with
      | .ok (id, n) =>
        if n.isDirectory && !a.has 'd' then
          if !n.mayRead then
            report c ("cannot open directory " ++ quote o ++ ": Permission denied")
            status := 2
          else folders := folders ++ [(o, ((s.disk.directory? id).map (·.1)).getD [], id)]
        else plain := plain ++ [o]
      | .error e =>
        match s.disk.find c.directory false o with
        | .ok _ => plain := plain ++ [o]
        | .error _ =>
          report c ("cannot access " ++ quote o ++ ": " ++ e.text)
          status := 2
    let lines := fun names : List String => String.join (names.map (· ++ "\n"))
    let plainText := lines (plain.map fun o => marked s.disk a c.directory o o)
    let headed := operands.length > 1
    let blocks := folders.map fun (o, entries, id) =>
      (if headed then o ++ ":\n" else "") ++
        lines ((listed a entries).map fun n => marked s.disk a id n n)
    let blocks := (if plain.isEmpty then [] else [plainText]) ++ blocks
    c.say ("\n".intercalate blocks)
    return c.exit status

end AssistedShell.Machine.Tool
