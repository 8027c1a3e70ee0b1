import Conformance.Machine.Utility.Stream
/-!
# Utilities for files

The utilities that create, remove, copy, move and list files.
-/

namespace Conformance.Machine

namespace Utility

/-- Does something with each path, and says what could not be done. -/
def forPaths (name what : String) (paths : List String) (f : String → Act (Except IoError Unit)) :
    Act UInt8 := do
  let mut code := 0
  for path in paths do
    match ← f path with
    | .ok () => pure ()
    | .error e =>
      complain name (what ++ " '" ++ path ++ "': " ++ errorText e)
      code := 1
  return code

def isDirectory (path : String) : Act Bool := do
  return (← Act.inspect? (RawText.toText path) true).any (·.isDirectory)

/-- The paths on the way to a path, itself the last. -/
def pathsTo (path : String) : List String :=
  let names := (path.splitOn "/").filter (· ≠ "")
  let root := if path.startsWith "/" then "/" else ""
  (List.range names.length).map fun k ↦ root ++ "/".intercalate (names.take (k + 1))

/-- Creates directories, and those above them if asked to. -/
def mkdir : Utility := fun ws _ ↦ do
  let (os, paths) := options (ws.drop 1)
  let mut code := 0
  for path in paths do
    if os.contains 'p' then
      let mut isOpen := true
      for step in pathsTo path do
        if isOpen then
          match ← Act.attempt (.makeDirectory (RawText.toText step)) with
          | .ok () => pure ()
          | .error e =>
            if !(← isDirectory step) then
              let e := if e = .alreadyExists && step ≠ path then .notDirectory else e
              complain "mkdir" ("cannot create directory '" ++ step ++ "': " ++ errorText e)
              code := 1
              isOpen := false
    else
      match ← Act.attempt (.makeDirectory (RawText.toText path)) with
      | .ok () => pure ()
      | .error e =>
        complain "mkdir" ("cannot create directory '" ++ path ++ "': " ++ errorText e)
        code := 1
  return code

/-- Removes what a path leads to, with all that is below it if `isDeep`. -/
def removeTree (isDeep : Bool) : Nat → String → Act (Except IoError Unit)
  | 0, _ => return .error .nameTooLong
  | fuel + 1, path => do
    match ← Act.inspect? (RawText.toText path) false with
    | none => return .error .noEntry
    | some info =>
      if info.isDirectory then
        if !isDeep then return .error .isDirectory
        for n in info.names do
          let _ ← removeTree isDeep fuel (path ++ "/" ++ RawText.ofText n)
      Act.attempt (.remove (RawText.toText path))

def rm : Utility := fun ws _ ↦
  let (os, paths) := options (ws.drop 1)
  forPaths "rm" "cannot remove" paths fun path ↦ do
    match ← removeTree (os.contains 'r' || os.contains 'R') 4096 path with
    | .error .noEntry => return if os.contains 'f' then .ok () else .error .noEntry
    | answer => return answer

def rmdir : Utility := fun ws _ ↦
  forPaths "rmdir" "failed to remove" (options (ws.drop 1)).2 fun path ↦ do
    if ← isDirectory path then Act.attempt (.remove (RawText.toText path))
    else
      match ← Act.inspect? (RawText.toText path) false with
      | some _ => return .error .notDirectory
      | none => return .error .noEntry

/-- Creates files that are absent. -/
def touch : Utility := fun ws _ ↦
  forPaths "touch" "cannot touch" (options (ws.drop 1)).2 fun path ↦ do
    if ← isDirectory path then return .ok ()
    match ← Act.openFile (RawText.toText path) .append with
    | .ok fd => do
      let _ ← Act.call (.close fd)
      return .ok ()
    | .error e => return .error e

/-- Makes files executable or not. -/
def chmod : Utility := fun ws _ ↦
  match (ws.drop 1).filter (· ≠ "-R") with
  | [] => return 1
  | mode :: paths =>
    let sets := mode.contains 'x' && !mode.contains '-' ||
      mode.toList.any fun c ↦ ['1', '3', '5', '7'].contains c
    forPaths "chmod" "cannot access" paths fun path ↦
      Act.attempt (.setExecutable (RawText.toText path) sets)

/-- The path at which something arrives: the target, or in it if it is a directory. -/
def arrival (source target : String) : Act String := do
  if ← isDirectory target then
    let name := (((source.dropEndWhile (· == '/')).toString.splitOn "/").getLast?).getD source
    return (target.dropEndWhile (· == '/')).toString ++ "/" ++ name
  else return target

def copyFile (source target : String) : Act (Except IoError Unit) := do
  match ← Act.openFile (RawText.toText source) .read with
  | .error e => return .error e
  | .ok fd =>
    match ← readAll fd with
    | .error e => return .error e
    | .ok s =>
      let _ ← Act.call (.close fd)
      match ← Act.openFile (RawText.toText target) .write with
      | .error e => return .error e
      | .ok copy =>
        let _ ← Act.write copy (RawText.toBytes s)
        let _ ← Act.call (.close copy)
        let executable := (← Act.inspect? (RawText.toText source) true).any (·.isExecutable)
        Act.attempt (.setExecutable (RawText.toText target) executable)

/-- Copies what a path leads to, with all that is below it. -/
def copyTree : Nat → String → String → Act (Except IoError Unit)
  | 0, _, _ => return .error .nameTooLong
  | fuel + 1, source, target => do
    match ← Act.inspect? (RawText.toText source) true with
    | none => return .error .noEntry
    | some info =>
      if !info.isDirectory then copyFile source target
      else
        let _ ← Act.call (.makeDirectory (RawText.toText target))
        for n in info.names do
          let n := RawText.ofText n
          let _ ← copyTree fuel (source ++ "/" ++ n) (target ++ "/" ++ n)
        return .ok ()

def cp : Utility := fun ws _ ↦ do
  let (os, paths) := options (ws.drop 1)
  let target := (paths.getLast?).getD ""
  let isDeep := os.any fun c ↦ ['r', 'R', 'a'].contains c
  forPaths "cp" "cannot stat" paths.dropLast fun source ↦ do
    let place ← arrival source target
    if isDeep then copyTree 4096 source place else copyFile source place

def mv : Utility := fun ws _ ↦ do
  let paths := (options (ws.drop 1)).2
  let target := (paths.getLast?).getD ""
  forPaths "mv" "cannot stat" paths.dropLast fun source ↦ do
    let place ← arrival source target
    Act.attempt (.rename (RawText.toText source) (RawText.toText place))

def ln : Utility := fun ws _ ↦ do
  let (os, paths) := options (ws.drop 1)
  let target := (paths.getLast?).getD ""
  forPaths "ln" "failed to create symbolic link" paths.dropLast fun source ↦ do
    let place ← arrival source target
    if os.contains 's' then
      if os.contains 'f' then
        let _ ← Act.call (.remove (RawText.toText place))
      Act.attempt (.makeLink (RawText.toText source) (RawText.toText place))
    else copyFile source place

def ls : Utility := fun ws _ ↦ do
  let (os, paths) := options (ws.drop 1)
  let mut code := 0
  for path in if paths.isEmpty then ["."] else paths do
    match ← Act.inspect? (RawText.toText path) true with
    | none =>
      complain "ls" ("cannot access '" ++ path ++ "': No such file or directory")
      code := 2
    | some info =>
      if info.isDirectory && !os.contains 'd' then
        let names := (info.names.map RawText.ofText).filter fun n ↦
          !n.startsWith "." || os.contains 'a' || os.contains 'A'
        let names := if os.contains 'a' then "." :: ".." :: names else names
        for n in names.mergeSort (· ≤ ·) do out (n ++ "\n")
      else out (path ++ "\n")
  return code

def pwd : Utility := fun _ _ ↦ do
  match ← Act.call .currentDirectory with
  | .text s =>
    out (RawText.ofText s ++ "\n")
    return 0
  | _ => return 1

end Utility

end Conformance.Machine
