import Conformance.Machine.Condition
import Conformance.Machine.Utility.File
import Conformance.Machine.Utility.Process
import Conformance.Machine.Utility.Text
/-!
# Utilities

All utilities of the machine by their names. Cloning repositories is among them, but the machine holds
no repositories.
-/

namespace Conformance.Machine

namespace Utility

/-! ## Repositories -/

/-- The host that an address names. -/
def host? (address : String) : Option String :=
  match address.splitOn "://" with
  | [_, rest] => ((rest.splitOn "/").head?)
  | _ => none

/-- Clones a repository. The machine holds no repositories and reaches no hosts, so every clone
fails. -/
def git : Utility := fun ws _ ↦ do
  match ws.drop 1 with
  | "clone" :: _ :: _ :: address :: root =>
    let root := (root.head?).getD ""
    let fatal (s : String) : Act UInt8 := do
      let _ ← Act.write 2 (RawText.toBytes ("fatal: " ++ s ++ "\n"))
      return 128
    match host? address with
    | some host =>
      let _ ← Act.write 2 (RawText.toBytes ("Cloning into '" ++ root ++ "'...\n"))
      let address := if address.endsWith "/" then address else address ++ "/"
      fatal ("unable to access '" ++ address ++ "': Could not resolve host: " ++ host)
    | none => fatal ("repository '" ++ address ++ "' does not exist")
  | _ => return 1

/-! ## The list of utilities -/

def all : List (String × Utility) :=
  [("true", fun _ _ ↦ return 0), ("false", fun _ _ ↦ return 1), ("echo", echo),
    ("printf", printf), ("cat", cat), ("head", head), ("tail", tail), ("tr", tr), ("wc", wc),
    ("tee", tee), ("yes", yes), ("seq", seq), ("basename", basename), ("dirname", dirname),
    ("sleep", sleep), ("setsid", setsid), ("env", env), ("kill", kill), ("mkdir", mkdir),
    ("rm", rm), ("rmdir", rmdir), ("touch", touch), ("chmod", chmod), ("cp", cp), ("mv", mv),
    ("ln", ln), ("ls", ls), ("pwd", pwd), ("git", git),
    ("test", fun ws _ ↦ Condition.run "test" (ws.drop 1)),
    ("[", fun ws _ ↦ Condition.run "[" (ws.drop 1))]

end Utility

end Conformance.Machine
