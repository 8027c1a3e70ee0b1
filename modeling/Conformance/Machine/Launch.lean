import Conformance.Machine.RawText
import Conformance.Machine.Task
/-!
# Finding and executing programs

A name with a slash is a path; any other is looked for in the directories of the search path, and the
first executable file of that name is taken. A file that is no program and names no interpreter is
left to the shell.
-/

namespace Conformance.Machine.Launch

/-- Where a program may be found. -/
inductive Found where
  | at (path : String)
  /-- There is such a file, but it cannot be executed. -/
  | denied
  | missing
  deriving DecidableEq, Repr

/-- The path of a name in a directory of the search path. -/
def join (directory name : String) : String :=
  if directory.isEmpty then name else directory ++ "/" ++ name

/-- Looks for a name in directories. -/
def searchIn (name : String) : List String → Act Found
  | [] => return .missing
  | d :: ds => do
    match ← Act.inspect? (RawText.toText (join d name)) true with
    | some i =>
      if i.isRegular && i.isExecutable then return .at (join d name)
      match ← searchIn name ds with
      | .missing => return if i.isRegular then .denied else .missing
      | found => return found
    | none => searchIn name ds

/-- Looks for a program. -/
def search (name : String) (directories : List String) : Act Found := do
  if name.contains '/' then
    match ← Act.inspect? (RawText.toText name) true with
    | none => return .missing
    | some i => return if i.isRegular && i.isExecutable then .at name else .denied
  else searchIn name directories

/-- Executes the program at a path. It returns only if that fails. -/
def execute (path : String) (arguments : List String) (environment : List (String × String)) :
    Act IoError := do
  match ← Act.call (.execute (RawText.toText path) arguments environment) with
  | .failed .badFormat =>
    match ← Act.call (.execute "/bin/sh" ("/bin/sh" :: path :: arguments.drop 1) environment) with
    | .failed e => return e
    | _ => return .badFormat
  | .failed e => return e
  | _ => return .badFormat

/-- Ends the process by executing a program, or with the code for a program that cannot be executed;
`report` prints why. -/
def become (directories : List String) (arguments : List String)
    (environment : List (String × String)) (report : String → Act Unit) : Act UInt8 := do
  let name := arguments.head?.getD ""
  match ← search name directories with
  | .missing =>
    report "No such file or directory"
    return 127
  | .denied =>
    report "Permission denied"
    return 126
  | .at path =>
    let e ← execute path arguments environment
    report ((e.systemText?.map (·.2)).getD e.message)
    return 126

end Conformance.Machine.Launch
