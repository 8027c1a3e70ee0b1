import Conformance.Machine.Host
import Conformance.Proofs.Files
import Conformance.Proofs.Machine.FileTree
/-!
# The files of a host

On a host a regular file is known by its location in the tree of the machine.
-/

namespace Conformance.Host

/-- The location of the regular file that a path leads to. -/
def fileAt (h : Host) (path : Path) : Option Machine.Location := h.machine.tree.fileAt path.text

theorem writeText_eq (path : Path) (text : String) (h : Host) :
    writeText path text h = match h.machine.tree.writeBytes path.text text.toUTF8 with
      | .error e => (.error e, h)
      | .ok t => (.ok (), h.setTree t) := by
  change (match h.machine.tree.writeBytes path.text text.toUTF8 with
    | .error e => _
    | .ok t => _ : StateM Host (Except IoError Unit)) h = _
  cases h.machine.tree.writeBytes path.text text.toUTF8 <;> rfl

/-- The files of a host are as a program relies on. -/
theorem fileLaws : platform.FileLaws fileAt where
  reads_written := by
    intro s t path text i h hi
    replace h : writeText path text s = (.ok (), t) := h
    rw [writeText_eq] at h
    split at h
    · cases h
    · rename_i tree hwrite
      cases h
      exact Machine.FileTree.readText_of_written hwrite hi
  keeps_others := by
    intro s t path other text answer i h hi hother
    replace h : writeText path text s = (answer, t) := h
    rw [writeText_eq] at h
    split at h
    · cases h
      exact ⟨hi, rfl⟩
    · rename_i tree hwrite
      cases h
      exact Machine.FileTree.other_of_written hwrite hi hother
  keeps_printing _ _ _ := ⟨rfl, rfl⟩

end Conformance.Host
