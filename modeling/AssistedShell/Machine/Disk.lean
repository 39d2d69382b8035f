import Std.Data.TreeMap
import AssistedShell.Fault
import AssistedShell.Path

/-! A file system as a value: nodes with their modes, directories naming nodes,
and paths followed through directories and links. Permissions are those of the
owner, who owns everything. -/

namespace AssistedShell.Machine

abbrev NodeId := Nat

inductive Device where
  | null | zero
  deriving DecidableEq, Repr, Inhabited

/-- What a node is. A tool is a program that belongs to the system, and an anchor leads to a
directory wherever that is, also if no path leads there any more. -/
inductive Content where
  | file (bytes : ByteArray)
  | directory (entries : List (String × NodeId)) (parent : NodeId)
  | link (target : String)
  | anchor (target : NodeId)
  | device (device : Device)
  | tool (name : String)
  deriving Inhabited

structure Node where
  mode : Nat
  content : Content
  deriving Inhabited

/-- Nodes by number; `next` is not taken yet. The root is node 0. -/
structure Disk where
  nodes : Std.TreeMap NodeId Node := {}
  next : NodeId := 0

namespace Node

def isDirectory (n : Node) : Bool :=
  match n.content with
  | .directory .. => true
  | _ => false

/-- A file with content of its own; tools are such files. -/
def isRegular (n : Node) : Bool :=
  match n.content with
  | .file _ | .tool _ => true
  | _ => false

def mayRead (n : Node) : Bool := n.mode &&& 0o400 != 0

def mayWrite (n : Node) : Bool := n.mode &&& 0o200 != 0

/-- To run a file, or to pass through a directory. -/
def mayEnter (n : Node) : Bool := n.mode &&& 0o100 != 0

/-- A regular file that somebody may run. -/
def isProgram (n : Node) : Bool := n.isRegular && n.mode &&& 0o111 != 0

end Node

/-- Where a path leads: the directory of its last part, that part, and what stands there.
`slashed` tells of a slash at the end. -/
structure Place where
  directory : NodeId
  name : String
  node : Option NodeId
  slashed : Bool
  deriving Inhabited

namespace Disk

def root : NodeId := 0

def get? (d : Disk) (id : NodeId) : Option Node := d.nodes[id]?

def put (d : Disk) (id : NodeId) (n : Node) : Disk := { d with nodes := d.nodes.insert id n }

/-- Adds a node. -/
def add (d : Disk) (n : Node) : NodeId × Disk :=
  (d.next, { nodes := d.nodes.insert d.next n, next := d.next + 1 })

/-- The entries of a directory and its parent. -/
def directory? (d : Disk) (id : NodeId) : Option (List (String × NodeId) × NodeId) :=
  match d.get? id with
  | some ⟨_, .directory entries parent⟩ => some (entries, parent)
  | _ => none

/-- Replaces the entries of a directory. -/
def setEntries (d : Disk) (id : NodeId) (entries : List (String × NodeId)) : Disk :=
  match d.get? id with
  | some ⟨mode, .directory _ parent⟩ => d.put id ⟨mode, .directory entries parent⟩
  | _ => d

/-- Names a node in a directory, in place of another of that name. -/
def link (d : Disk) (dir : NodeId) (name : String) (id : NodeId) : Disk :=
  match d.directory? dir with
  | some (entries, _) => d.setEntries dir (entries.filter (·.1 ≠ name) ++ [(name, id)])
  | none => d

def unlink (d : Disk) (dir : NodeId) (name : String) : Disk :=
  match d.directory? dir with
  | some (entries, _) => d.setEntries dir (entries.filter (·.1 ≠ name))
  | none => d

/-- A disk with an empty root. -/
def empty : Disk := ((⟨{}, 0⟩ : Disk).add ⟨0o755, .directory [] 0⟩).2

/-! ### Paths -/

def linkLimit : Nat := 40

def nameLimit : Nat := 255

def pathLimit : Nat := 4096

/-- The parts of a path that name something. -/
def partsOf (path : String) : List String :=
  (Path.split path.toList).filterMap fun s => if s = [] then none else some (String.ofList s)

def isAbsolute (path : String) : Bool := Path.isAbsolute path.toList

/-- A path that ends with a slash. -/
def endsSlashed (path : String) : Bool := path.toList.getLast? == some '/'

/-- Follows parts from a directory, through at most `links` links. A link at the end is
followed on demand, or where a slash comes after it. -/
def walk (d : Disk) (follow slashed : Bool) (links : Nat) (here : NodeId) (parts : List String) :
    Except Errno Place :=
  match parts with
  | [] => .ok ⟨here, ".", some here, slashed⟩
  | part :: rest =>
    match d.get? here with
    | none => .error .noEntry
    | some n =>
      match n.content with
      | .directory entries parent =>
        if !n.mayEnter then .error .denied
        else if part = "." then
          if rest.isEmpty then .ok ⟨here, ".", some here, slashed⟩
          else walk d follow slashed links here rest
        else if part = ".." then
          if rest.isEmpty then .ok ⟨here, "..", some parent, slashed⟩
          else walk d follow slashed links parent rest
        else if part.utf8ByteSize > nameLimit then .error .nameTooLong
        else
          match entries.lookup part with
          | none => if rest.isEmpty then .ok ⟨here, part, none, slashed⟩ else .error .noEntry
          | some id =>
            match (d.get? id).map Node.content with
            | some (Content.link target) =>
              if rest.isEmpty && !follow && !slashed then .ok ⟨here, part, some id, slashed⟩
              else
                match links with
                | 0 => .error .linkLoop
                | links + 1 =>
                  if target.isEmpty then .error .noEntry
                  else
                    walk d follow (slashed || (rest.isEmpty && endsSlashed target)) links
                      (if isAbsolute target then root else here) (partsOf target ++ rest)
            | some (Content.anchor target) =>
              if rest.isEmpty && !follow && !slashed then .ok ⟨here, part, some id, slashed⟩
              else
                match links with
                | 0 => .error .linkLoop
                | links + 1 => walk d follow slashed links target rest
            | some (Content.directory ..) =>
              if rest.isEmpty then .ok ⟨here, part, some id, slashed⟩
              else walk d follow slashed links id rest
            | _ =>
              if rest.isEmpty && !slashed then .ok ⟨here, part, some id, slashed⟩
              else .error .notDirectory
      | _ => .error .notDirectory
termination_by (links, parts.length)
decreasing_by
  all_goals simp_wf
  all_goals first
    | exact Prod.Lex.right _ (by simp)
    | exact Prod.Lex.left _ _ (by omega)

/-- What a directory lists under a name. -/
def entry? (d : Disk) (dir : NodeId) (name : String) : Option NodeId :=
  (d.directory? dir).bind fun (entries, _) => entries.lookup name

/-- Where a path leads from a directory. -/
def locate (d : Disk) (here : NodeId) (follow : Bool) (path : String) : Except Errno Place :=
  if path.isEmpty then .error .noEntry
  else if path.utf8ByteSize ≥ pathLimit then .error .nameTooLong
  else
    walk d follow (endsSlashed path) linkLimit (if isAbsolute path then root else here)
      (partsOf path)

/-- The node that a path names. -/
def find (d : Disk) (here : NodeId) (follow : Bool) (path : String) :
    Except Errno (NodeId × Node) :=
  match d.locate here follow path with
  | .error e => .error e
  | .ok p =>
    match p.node with
    | none => .error .noEntry
    | some id =>
      match d.get? id with
      | none => .error .noEntry
      | some n => .ok (id, n)

/-- The name under which a directory lists a node. -/
def nameOf? (d : Disk) (dir id : NodeId) : Option String :=
  (d.directory? dir).bind fun (entries, _) => (entries.find? (·.2 = id)).map (·.1)

/-- The names from the root to a directory, last first. -/
def namesTo? (d : Disk) : Nat → NodeId → Option (List String)
  | 0, _ => none
  | fuel + 1, id =>
    if id = root then some []
    else do
      let (_, parent) ← d.directory? id
      let name ← d.nameOf? parent id
      let above ← d.namesTo? fuel parent
      return name :: above

/-- The absolute path of a directory; none if it is no longer part of the tree. -/
def pathOf? (d : Disk) (id : NodeId) : Option String :=
  (d.namesTo? (d.next + 1) id).map fun names =>
    if names.isEmpty then "/" else String.join (names.reverse.map ("/" ++ ·))

/-- A directory is still part of the tree. -/
def attached (d : Disk) (dir : NodeId) : Bool := (d.pathOf? dir).isSome

/-- The directory of a place may be changed. -/
def writable (d : Disk) (dir : NodeId) : Bool := ((d.get? dir).map Node.mayWrite).getD false

/-- The absolute path of what a path names, without links. -/
def canonical (d : Disk) (here : NodeId) (path : String) : Except Errno String :=
  match d.locate here true path with
  | .error e => .error e
  | .ok p =>
    match p.node with
    | none => .error .noEntry
    | some id =>
      match d.pathOf? id with
      | some s => .ok s
      | none =>
        match d.pathOf? p.directory with
        | some s => .ok (joinPath s p.name)
        | none => .error .noEntry

/-! ### Changes -/

/-- How a file is opened. -/
structure Access where
  read : Bool := false
  write : Bool := false
  create : Bool := false
  exclusive : Bool := false
  truncate : Bool := false
  mode : Nat := 0o666

/-- The bits that new files do not get. -/
def umask : Nat := 0o022

def masked (mode : Nat) : Nat := mode - (mode &&& umask)

/-- Opens a file, or makes it. -/
def openFile (d : Disk) (here : NodeId) (path : String) (a : Access) :
    Except Errno (NodeId × Disk) :=
  match d.locate here (!a.exclusive) path with
  | .error e => .error e
  | .ok p =>
    match p.node with
    | none =>
      if !a.create then .error .noEntry
      else if p.slashed then .error .isDirectory
      else if !d.attached p.directory then .error .noEntry
      else if !d.writable p.directory then .error .denied
      else
        let (id, d) := d.add ⟨masked a.mode, .file .empty⟩
        .ok (id, d.link p.directory p.name id)
    | some id =>
      match d.get? id with
      | none => .error .noEntry
      | some n =>
        if a.create && a.exclusive then .error .exists
        else if n.isDirectory && (a.write || a.create) then .error .isDirectory
        else if (a.read && !n.mayRead) || (a.write && !n.mayWrite) then .error .denied
        else
          match n.content with
          | .file _ =>
            .ok (id, if a.truncate then d.put id { n with content := .file .empty } else d)
          | .link _ => .error .linkLoop
          | _ => .ok (id, d)

def makeDirectory (d : Disk) (here : NodeId) (path : String) (mode : Nat) : Except Errno Disk :=
  match d.locate here false path with
  | .error e => .error e
  | .ok p =>
    match p.node with
    | some _ => .error .exists
    | none =>
      if !d.attached p.directory then .error .noEntry
      else if !d.writable p.directory then .error .denied
      else
        let (id, d) := d.add ⟨masked mode, .directory [] p.directory⟩
        .ok (d.link p.directory p.name id)

def removeDirectory (d : Disk) (here : NodeId) (path : String) : Except Errno Disk :=
  match d.locate here false path with
  | .error e => .error e
  | .ok p =>
    match p.node with
    | none => .error .noEntry
    | some id =>
      if p.name = "." then .error .invalid
      else if p.name = ".." then .error .notEmpty
      else
        match d.directory? id with
        | none => .error .notDirectory
        | some (entries, _) =>
          if !entries.isEmpty then .error .notEmpty
          else if !d.writable p.directory then .error .denied
          else .ok (d.unlink p.directory p.name)

def removeFile (d : Disk) (here : NodeId) (path : String) : Except Errno Disk :=
  match d.locate here false path with
  | .error e => .error e
  | .ok p =>
    match p.node with
    | none => .error .noEntry
    | some id =>
      if (d.directory? id).isSome then .error .isDirectory
      else if !d.writable p.directory then .error .denied
      else .ok (d.unlink p.directory p.name)

/-- Puts a node at a path where nothing stands yet. -/
def place (d : Disk) (here : NodeId) (path : String) (id : NodeId) : Except Errno Disk :=
  match d.locate here false path with
  | .error e => .error e
  | .ok p =>
    if p.node.isSome then .error .exists
    else if p.slashed || !d.attached p.directory then .error .noEntry
    else if !d.writable p.directory then .error .denied
    else .ok (d.link p.directory p.name id)

def symlink (d : Disk) (here : NodeId) (target path : String) : Except Errno Disk :=
  if target.isEmpty then .error .noEntry
  else
    let (id, d) := d.add ⟨0o777, .link target⟩
    d.place here path id

/-- A second name for a file. -/
def hardLink (d : Disk) (here : NodeId) (target path : String) : Except Errno Disk :=
  match d.find here false target with
  | .error e => .error e
  | .ok (id, n) => if n.isDirectory then .error .notPermitted else d.place here path id

def setMode (d : Disk) (id : NodeId) (mode : Nat) : Disk :=
  match d.get? id with
  | some n => d.put id { n with mode }
  | none => d

/-- Replaces the content of a file. -/
def setBytes (d : Disk) (id : NodeId) (bytes : ByteArray) : Disk :=
  match d.get? id with
  | some ⟨mode, .file _⟩ => d.put id ⟨mode, .file bytes⟩
  | _ => d

/-- Lets an anchor lead to a directory. -/
def setAnchor (d : Disk) (id : NodeId) (dir : NodeId) : Disk :=
  match d.get? id with
  | some ⟨mode, .anchor _⟩ => d.put id ⟨mode, .anchor dir⟩
  | _ => d

def bytes? (d : Disk) (id : NodeId) : Option ByteArray :=
  match d.get? id with
  | some ⟨_, .file bytes⟩ => some bytes
  | some ⟨_, .tool _⟩ => some .empty
  | _ => none

def isDirectoryAt (d : Disk) (here : NodeId) (path : String) : Bool :=
  match d.find here true path with
  | .ok (_, n) => n.isDirectory
  | .error _ => false

/-- Makes a directory, unless there is one. -/
def ensureDirectory (d : Disk) (here : NodeId) (path : String) : Except Errno Disk :=
  match d.makeDirectory here path 0o777 with
  | .ok d => .ok d
  | .error e => if d.isDirectoryAt here path then .ok d else .error e

/-- Makes a directory and those above it that are missing, at most `depth` of them. -/
def makePath (d : Disk) (here : NodeId) : Nat → String → Except Errno Disk
  | 0, path => d.ensureDirectory here path
  | depth + 1, path =>
    if path.isEmpty then .ok d
    else
      match d.ensureDirectory here path with
      | .error .noEntry =>
        match parentPath? path with
        | none => .error .noEntry
        | some above =>
          match d.makePath here depth above with
          | .error e => .error e
          | .ok d => d.ensureDirectory here path
      | r => r

/-- Whether a path names anything. -/
def present (d : Disk) (here : NodeId) (path : String) : Bool :=
  (d.find here true path).toOption.isSome

/-- Whether a path names a file that the owner may run. -/
def runnable (d : Disk) (here : NodeId) (path : String) : Bool :=
  match d.find here true path with
  | .ok (_, n) => n.isRegular && n.mayEnter
  | .error _ => false

end Disk

end AssistedShell.Machine
