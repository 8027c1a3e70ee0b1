import Conformance.Machine.RawText
import Conformance.Machine.Task
/-!
# What utilities have in common

A utility is a small program of the machine. It is given the words of its command line, its own name
first, and the environment, and ends with an exit code. Most read the files that they are given, or
their standard input, and print to their standard output. Texts are raw.
-/

namespace Conformance.Machine

/-- A program other than the shell. -/
abbrev Utility := List String → List (String × String) → Act UInt8

namespace Utility

def out (s : String) : Act Unit := do
  let _ ← Act.write 1 (RawText.toBytes s)
  return

/-- Prints a line with the name of the program to the standard error. -/
def complain (name text : String) : Act Unit := do
  let _ ← Act.write 2 (RawText.toBytes (name ++ ": " ++ text ++ "\n"))
  return

/-- The text of an error as programs print it. -/
def errorText (e : IoError) : String := (e.systemText?.map (·.2)).getD e.message

/-- Reads a descriptor to its end, piece by piece. -/
def foldInput {α : Type} (fd : Nat) (f : α → ByteArray → Act α) : Nat → α → Act (Except IoError α)
  | 0, a => return .ok a
  | fuel + 1, a => do
    match ← Act.read fd 65536 with
    | .error e => return .error e
    | .ok bytes =>
      if bytes.isEmpty then return .ok a
      foldInput fd f fuel (← f a bytes)

def readAll (fd : Nat) : Act (Except IoError String) := do
  let bytes ← foldInput fd (fun a b ↦ pure (a ++ b)) Act.boundless ByteArray.empty
  return bytes.map RawText.ofBytes

/-- Does something with each input that a command line names: files, or the standard input. -/
def forInputs (name : String) (paths : List String) (f : String → Nat → Act (Except IoError Unit)) :
    Act UInt8 := do
  let mut code := 0
  for path in if paths.isEmpty then ["-"] else paths do
    if path = "-" then
      match ← f "-" 0 with
      | .ok () => pure ()
      | .error e =>
        complain name ("-: " ++ errorText e)
        code := 1
    else
      match ← Act.openFile (RawText.toText path) .read with
      | .error e =>
        complain name (path ++ ": " ++ errorText e)
        code := 1
      | .ok fd =>
        match ← f path fd with
        | .ok () => pure ()
        | .error e =>
          complain name (path ++ ": " ++ errorText e)
          code := 1
        let _ ← Act.call (.close fd)
  return code

/-- The single-letter options at the front of words, and the other words. -/
def options : List String → List Char × List String
  | [] => ([], [])
  | w :: ws =>
    if w = "--" then ([], ws)
    else if w.startsWith "-" && w.length > 1 then
      let (os, rest) := options ws
      ((w.drop 1).toString.toList ++ os, rest)
    else
      let (os, rest) := options ws
      (os, w :: rest)

end Utility

end Conformance.Machine
