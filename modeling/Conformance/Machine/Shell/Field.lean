import Conformance.Machine.Shell.Pattern
import Conformance.Machine.Shell.State
/-!
# Fields

Expanding a word gives marks, which fall into fields: unquoted results of expansions are cut at the
separators, and everything else holds together. A field that is an open pattern is replaced by the
paths that match it, if there are any.
-/

namespace Conformance.Machine.Shell

/-- A piece of an expanded word. -/
inductive Mark where
  | glyph (g : Glyph)
  /-- A character of an unquoted result, at which a field may end. -/
  | soft (c : Char)
  /-- Nothing, but a field all the same. -/
  | nothing
  /-- The end of a field. -/
  | boundary
  deriving DecidableEq, Repr

namespace Mark

/-- The marks of a text that holds together. -/
def hard (isQuoted : Bool) (s : String) : List Mark :=
  if isQuoted && s.isEmpty then [.nothing] else s.toList.map fun c ↦ .glyph ⟨c, isQuoted⟩

/-- The marks of the result of an expansion. -/
def result (isQuoted : Bool) (s : String) : List Mark :=
  if isQuoted then hard true s else s.toList.map .soft

/-- The glyphs of marks that are not to be cut. -/
def glyphs (ms : List Mark) : List Glyph :=
  ms.filterMap fun m ↦ match m with
    | .glyph g => some g
    | .soft c => some ⟨c, false⟩
    | .nothing => none
    | .boundary => some ⟨' ', false⟩

/-- The text of marks that are not to be cut. -/
def text (ms : List Mark) : String := Glyph.text (glyphs ms)

/-- How far the cutting of marks has come. -/
structure Cut where
  /-- The fields that are complete, the latest first. -/
  fields : List (List Glyph)
  /-- The glyphs of the field under way, the latest first. -/
  current : Option (List Glyph)
  /-- Whether the last field was ended by a blank only. -/
  isOpenEnded : Bool

/-- The field under way completed, if there is one. -/
def Cut.close (x : Cut) (isOpenEnded : Bool) : Cut :=
  match x.current with
  | some gs => ⟨gs.reverse :: x.fields, none, isOpenEnded⟩
  | none => { x with isOpenEnded := x.isOpenEnded && isOpenEnded }

/-- Takes a mark into account. -/
def Cut.add (separators : List Char) (x : Cut) : Mark → Cut
  | .glyph g => { x with current := some (g :: x.current.getD []) }
  | .nothing => { x with current := some (x.current.getD []) }
  | .boundary => x.close false
  | .soft c =>
    if !separators.contains c then { x with current := some (⟨c, false⟩ :: x.current.getD []) }
    else if c == ' ' || c == '\t' || c == '\n' then
      match x.current with
      | some _ => x.close true
      | none => x
    else
      match x.current with
      | some _ => x.close false
      | none =>
        if x.isOpenEnded then { x with isOpenEnded := false }
        else { x with fields := [] :: x.fields }

def fields (separators : List Char) (ms : List Mark) : List (List Glyph) :=
  ((ms.foldl (Cut.add separators) ⟨[], none, false⟩).close false).fields.reverse

end Mark

/-! ## Paths that match -/

/-- The parts of a path pattern between slashes. -/
def pathParts (gs : List Glyph) : List (List Glyph) :=
  gs.foldr (fun g ps ↦
    if g.char = '/' then [] :: ps
    else
      match ps with
      | p :: ps => (g :: p) :: ps
      | [] => [[g]]) [[]]

/-- The names in a directory that match a pattern, in order. A name that begins with a dot is matched
only if the pattern begins with one. -/
def namesMatching (directory : String) (p : List Glyph) : Sh (List String) := do
  let path := if directory.isEmpty then "." else directory
  match ← act (Act.inspect? (RawText.toText path) true) with
  | none => return []
  | some info =>
    let es := Pattern.ofGlyphs p
    let showsHidden := p.head?.any (·.char = '.')
    let names := "." :: ".." :: info.names.map RawText.ofText
    let found := names.filter fun n ↦
      (showsHidden || !n.startsWith ".") && Pattern.isMatch es n.toList
    return found.mergeSort (· ≤ ·)

/-- The paths that match the parts of a pattern, below a directory. -/
def pathsMatching : List (List Glyph) → String → Sh (List String)
  | [], directory => return [directory]
  | [p], directory => do
    if Pattern.isOpen p then return (← namesMatching directory p).map (directory ++ ·)
    let path := directory ++ Glyph.text p
    let found ← act (Act.inspect? (RawText.toText path) false)
    return if p.isEmpty || found.isSome then [path] else []
  | p :: ps, directory => do
    if Pattern.isOpen p then
      let mut paths := []
      for n in ← namesMatching directory p do
        let below := directory ++ n
        match ← act (Act.inspect? (RawText.toText below) true) with
        | some info => if info.isDirectory then paths := paths ++ (← pathsMatching ps (below ++ "/"))
        | none => pure ()
      return paths
    else pathsMatching ps (directory ++ Glyph.text p ++ "/")

/-- The texts that a field stands for. -/
def fieldTexts (gs : List Glyph) : Sh (List String) := do
  if !Pattern.isOpen gs || (← get).flags.contains 'f' then return [Glyph.text gs]
  let paths ← pathsMatching (pathParts gs) ""
  return if paths.isEmpty then [Glyph.text gs] else paths

end Conformance.Machine.Shell
