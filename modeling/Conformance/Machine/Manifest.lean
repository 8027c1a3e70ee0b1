import Conformance.Machine.Host
import Conformance.Text.Blank
import Conformance.Yaml.Document
/-!
# Manifests

A manifest lists the files that are put on a machine before it is used: a mapping from paths to texts.
A path that ends in a slash is a directory. A text that names an interpreter is a program.
-/

namespace Conformance.Machine.Manifest

/-- A file by its path and its text. -/
abbrev Item := String × String

/-- The file that an entry lists. -/
def item? (entry : Yaml.Value × Yaml.Value) : Option Item :=
  match entry.1.shape, entry.2.shape with
  | .scalar _ _ path, .scalar _ _ text => some (path, text)
  | _, _ => none

/-- The files that a text lists, if it is a manifest. -/
def read? (text : String) : Option (List Item) :=
  if Text.isBlankText text then some []
  else
    match Yaml.Document.ofText? text with
    | some (.mapping _ entries) => entries.mapM item?
    | some .blank => some []
    | _ => none

def add (t : FileTree) (i : Item) : FileTree :=
  if i.1.endsWith "/" then t.addDirectory i.1
  else t.addFile i.1 i.2.toUTF8 (i.2.startsWith "#!")

def host (items : List Item) : Host :=
  Host.boot.setTree (items.foldl add Host.boot.machine.tree)

end Conformance.Machine.Manifest
