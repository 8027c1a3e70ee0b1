/-!
# Paths

A path is a text with `/` between its parts. Its *components* are what it names step by step: the
root, names, and steps to the parent. Repeated slashes, a trailing slash and interior `.` steps do
not show among the components; only a `.` that begins a relative path does.

Joining works on the texts and keeps every spelling; everything that asks what a path means (the
file name, the stem, the extension, whether one path lies under another) works on components.

The parts of a path are texts. A file system may also know names that are not UTF-8; such a name has
no counterpart here, neither as it is nor as the text with replacement characters that it would be
shown as.
-/

namespace Conformance

/-- A path, spelled as it was given. -/
structure Path where
  text : String
  deriving DecidableEq, Repr

namespace Path

/-- One step of a path. -/
inductive Component where
  | root
  | current
  | parent
  | name (name : List Char)
  deriving DecidableEq, Repr

def Component.chars : Component → List Char
  | .root => ['/']
  | .current => ['.']
  | .parent => ['.', '.']
  | .name n => n

/-- The parts of a text between slashes, empty ones included. -/
def segments : List Char → List (List Char)
  | [] => [[]]
  | c :: cs =>
    if c = '/' then [] :: segments cs
    else
      match segments cs with
      | s :: rest => (c :: s) :: rest
      | [] => [[c]]

/-- The component that a segment stands for inside a path, if it shows at all. -/
def component? (segment : List Char) : Option Component :=
  if segment = [] ∨ segment = ['.'] then none
  else if segment = ['.', '.'] then some .parent
  else some (.name segment)

def componentsOf (cs : List Char) : List Component :=
  let parts := segments cs
  let first : List Component :=
    if cs.head? = some '/' then [.root]
    else if parts.head? = some ['.'] then [.current]
    else []
  first ++ parts.filterMap component?

def components (p : Path) : List Component := componentsOf p.text.toList

def isAbsolute (p : Path) : Bool := p.text.toList.head? = some '/'

/-- The text of `base` continued by `sub`. -/
def joinChars (base sub : List Char) : List Char :=
  if sub.head? = some '/' then sub
  else if base = [] ∨ base.getLast? = some '/' then base ++ sub
  else base ++ '/' :: sub

/-- A path below another; an absolute one replaces it. -/
def join (base : Path) (sub : String) : Path :=
  ⟨String.ofList (joinChars base.text.toList sub.toList)⟩

/-- The last component, if it is a name. -/
def fileName? (p : Path) : Option (List Char) :=
  match p.components.getLast? with
  | some (.name n) => some n
  | _ => none

/-- A file name cut at its last dot, if that dot has something before it. -/
def splitName? (name : List Char) : Option (List Char × List Char) :=
  let after := (name.reverse.takeWhile (· ≠ '.')).reverse
  let before := (name.reverse.drop (after.length + 1)).reverse
  if before = [] then none else some (before, after)

/-- The part of a file name before its last dot, or the whole name. -/
def stemOf (name : List Char) : List Char :=
  ((splitName? name).map Prod.fst).getD name

def stem? (p : Path) : Option (List Char) := p.fileName?.map stemOf

/-- The part of the file name after its last dot, if that dot has something before it. -/
def extension? (p : Path) : Option (List Char) :=
  p.fileName?.bind fun n ↦ (splitName? n).map Prod.snd

def renderComponents (cs : List Component) : String :=
  String.ofList (List.intercalate ['/'] (cs.map Component.chars))

/-- The components of a path after those of `base`; all of them if it does not lie under `base`. -/
def relativeTo (p base : Path) : List Component :=
  if base.components.isPrefixOf p.components then p.components.drop base.components.length
  else p.components

end Path

end Conformance
