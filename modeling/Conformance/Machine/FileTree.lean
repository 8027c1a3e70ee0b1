import Conformance.IoError
import Conformance.Path
import Conformance.Text.Utf8
/-!
# File trees

A file tree is what a machine has on its disk: directories with files, symbolic links, devices and
the programs of the system. A *location* is the list of names that leads from the root to a node,
without any link on the way; resolving a path turns it into a location.

A path is resolved name by name. A link is replaced by its target, at most forty times; a step can
only be taken inside a directory; only the last name may be absent, which is what makes room for a
new file.
-/

namespace Conformance.Machine

/-- The devices of the machine. -/
inductive Device where
  /-- Swallows everything and holds nothing. -/
  | null
  /-- Swallows everything and holds NULs without end. -/
  | zero
  deriving DecidableEq, Repr

/-- What is found under a name. -/
inductive FileNode where
  | file (content : ByteArray) (isExecutable : Bool)
  /-- A program of the system, by its name. -/
  | program (name : String)
  | device (device : Device)
  | link (target : String)
  | directory (entries : List (String × FileNode))

/-- The names from the root to a node. -/
abbrev Location := List String

namespace FileNode

def isDirectory : FileNode → Bool
  | .directory _ => true
  | _ => false

/-- Whether a node is a regular file. -/
def isRegular : FileNode → Bool
  | .file .. | .program _ => true
  | _ => false

/-- The entries of a directory, none of anything else. -/
def entries : FileNode → List (String × FileNode)
  | .directory es => es
  | _ => []

/-- The node at a location. -/
def get? (root : FileNode) : Location → Option FileNode
  | [] => some root
  | name :: rest =>
    match root.entries.lookup name with
    | some n => n.get? rest
    | none => none

/-- A list of entries with one of them replaced, removed or put at the end. -/
def setEntry (name : String) (n : Option FileNode) :
    List (String × FileNode) → List (String × FileNode)
  | [] => (n.map fun n ↦ [(name, n)]).getD []
  | e :: es =>
    if e.1 = name then (n.map fun n ↦ (name, n) :: es).getD es else e :: setEntry name n es

/-- The tree with the node at a location replaced, removed or added. -/
def set (root : FileNode) (n : Option FileNode) : Location → FileNode
  | [] => n.getD root
  | [name] => .directory (setEntry name n root.entries)
  | name :: rest =>
    match root.entries.lookup name with
    | some child => .directory (setEntry name (some (child.set n rest)) root.entries)
    | none => root

end FileNode

/-! ## Resolving paths -/

/-- A file tree and the directory in which relative paths begin. -/
structure FileTree where
  root : FileNode
  current : Location

namespace FileTree

/-- Where a path leads: a location, and the node there unless the name is free. -/
structure Place where
  location : Location
  node : Option FileNode

/-- How far the names of a path could be followed. -/
inductive Progress where
  /-- To the end. -/
  | arrived (place : Place)
  /-- To a link in the directory `base`, with `rest` still to follow after its target. -/
  | atLink (base : Location) (target : String) (rest : List String)

/-- The longest name of a file in bytes. -/
def longestName : Nat := 255

/-- The length in bytes from which on a path is too long. -/
def longestPath : Nat := 4096

/-- How many links may stand on the way. -/
def mostLinks : Nat := 40

/-- The names between the slashes of a path. -/
def stepsOf (path : String) : List String :=
  ((Path.segments path.toList).filter (· ≠ [])).map String.ofList

/-- The names of a path. A slash at the end asks for a directory, as a final `.` does. -/
def namesOf (path : String) : List String :=
  let names := stepsOf path
  if path.endsWith "/" && !names.isEmpty then names ++ ["."] else names

/-- Follows names from a location, up to the next link. A link at the very end is followed only if
`followsLast`. -/
def follow (root : FileNode) (followsLast : Bool) (base : Location) :
    List String → Except IoError Progress
  | [] => .ok (.arrived ⟨base, root.get? base⟩)
  | name :: rest =>
    if !((root.get? base).any (·.isDirectory)) then .error .notDirectory
    else if name = "." then follow root followsLast base rest
    else if name = ".." then follow root followsLast base.dropLast rest
    else if longestName < name.utf8ByteSize then .error .nameTooLong
    else
      match root.get? (base ++ [name]) with
      | none =>
        if rest.isEmpty then .ok (.arrived ⟨base ++ [name], none⟩) else .error .noEntry
      | some (.link target) =>
        if rest.isEmpty && !followsLast then
          .ok (.arrived ⟨base ++ [name], some (.link target)⟩)
        else .ok (.atLink base target rest)
      | some _ => follow root followsLast (base ++ [name]) rest

/-- Follows names from a location, through at most the given number of links. -/
def followLinks (root : FileNode) (followsLast : Bool) :
    Nat → Location → List String → Except IoError Place
  | 0, base, names => do
    match ← follow root followsLast base names with
    | .arrived place => return place
    | .atLink .. => .error .tooManyLinks
  | links + 1, base, names => do
    match ← follow root followsLast base names with
    | .arrived place => return place
    | .atLink base target rest =>
      let base := if target.startsWith "/" then [] else base
      followLinks root followsLast links base (namesOf target ++ rest)

/-- Where a path leads. -/
def resolve (t : FileTree) (path : String) (followsLast : Bool) : Except IoError Place :=
  if path.contains '\x00' then .error .nulInName
  else if path = "" then .error .noEntry
  else if longestPath ≤ path.utf8ByteSize then .error .nameTooLong
  else
    followLinks t.root followsLast mostLinks (if path.startsWith "/" then [] else t.current)
      (namesOf path)

/-- The node that a path leads to. -/
def node (t : FileTree) (path : String) : Except IoError FileNode := do
  match (← t.resolve path true).node with
  | some n => return n
  | none => .error .noEntry

/-! ## Questions -/

def isPresent (t : FileTree) (path : String) : Bool := (t.node path).toOption.isSome

def isFile (t : FileTree) (path : String) : Bool := (t.node path).toOption.any (·.isRegular)

def isDirectory (t : FileTree) (path : String) : Bool :=
  (t.node path).toOption.any (·.isDirectory)

/-- The first bytes of a system program. -/
def programHeader : ByteArray := ⟨#[0x7F, 0x45, 0x4C, 0x46, 0x02, 0x01, 0x01, 0x00, 0xFF]⟩

/-- The bytes of a file. A device without end has none that could be read to the end. -/
def readBytes (t : FileTree) (path : String) : Except IoError ByteArray := do
  match ← t.node path with
  | .file content _ => return content
  | .program _ => return programHeader
  | .device _ => return .empty
  | .directory _ => .error .isDirectory
  | .link _ => .error .tooManyLinks

def readText (t : FileTree) (path : String) : Except IoError String := do
  match Utf8.decode? (← t.readBytes path).toList with
  | some cs => return String.ofList cs
  | none => .error .invalidText

/-! ## Changes -/

/-- The tree with the node at a location replaced, removed or added. -/
def put (t : FileTree) (l : Location) (n : Option FileNode) : FileTree :=
  { t with root := t.root.set n l }

/-- Makes a file empty, or creates it, for writing. Tells where it is. -/
def truncate (t : FileTree) (path : String) : Except IoError (Location × FileTree) := do
  if path.endsWith "/" then .error .isDirectory
  let place ← t.resolve path true
  match place.node with
  | none => return (place.location, t.put place.location (some (.file .empty false)))
  | some (.file _ x) => return (place.location, t.put place.location (some (.file .empty x)))
  | some (.directory _) => .error .isDirectory
  | some _ => return (place.location, t)

def writeBytes (t : FileTree) (path : String) (content : ByteArray) : Except IoError FileTree := do
  let (location, t) ← t.truncate path
  match t.root.get? location with
  | some (.file _ x) => return t.put location (some (.file content x))
  | _ => return t

def makeDirectory (t : FileTree) (path : String) : Except IoError FileTree := do
  let place ← t.resolve (path.dropEndWhile (· == '/')).toString false
  match place.node with
  | none => return t.put place.location (some (.directory []))
  | some _ => .error .alreadyExists

/-- Creates the directories on the way along some names, as far as that is possible. -/
def makeDirectories (t : FileTree) (isAbsolute : Bool) (names : List String) : FileTree :=
  (List.range names.length).foldl (fun t k ↦
    let path := (if isAbsolute then "/" else "") ++ "/".intercalate (names.take (k + 1))
    (t.makeDirectory path).toOption.getD t) t

/-- The tree in which the directories above a path exist, as far as that is possible. -/
def withParents (t : FileTree) (path : String) : FileTree :=
  t.makeDirectories (path.startsWith "/") (stepsOf path).dropLast

/-- Puts a file in place, with the directories above it. -/
def addFile (t : FileTree) (path : String) (content : ByteArray) (isExecutable : Bool) : FileTree :=
  let t := t.withParents path
  match t.resolve path true with
  | .ok place => t.put place.location (some (.file content isExecutable))
  | .error _ => t

/-- Puts a directory in place, with the directories above it. -/
def addDirectory (t : FileTree) (path : String) : FileTree :=
  t.makeDirectories (path.startsWith "/") (stepsOf path)

/-- Puts a symbolic link in place, with the directories above it. -/
def addLink (t : FileTree) (path target : String) : FileTree :=
  let t := t.withParents path
  match t.resolve path false with
  | .ok ⟨location, none⟩ => t.put location (some (.link target))
  | _ => t

end FileTree

end Conformance.Machine
