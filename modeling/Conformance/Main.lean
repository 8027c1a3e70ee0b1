import Conformance.Machine.Manifest
import Conformance.Program
/-!
# The command line

The program runs on a machine whose files a manifest on the standard input lists. What it prints goes
to the standard output, and the reports that it wrote go to the standard error, each under its path.
-/

namespace Conformance

/-- Reads a stream to its end. -/
partial def readStream (s : IO.FS.Stream) (text : String) : IO String := do
  let line ← s.getLine
  if line.isEmpty then return text else readStream s (text ++ line)

/-- The paths of the reports that a command line asks for. -/
def reportPaths (words : List String) : List Path :=
  match CommandLine.read words with
  | .ok args => args.output :: args.prComment.toList
  | .error _ => []

end Conformance

open Conformance in
/-- Runs the program on a machine with the files of a manifest. -/
def main (words : List String) : IO UInt32 := do
  let stdout ← IO.getStdout
  let stderr ← IO.getStderr
  match Machine.Manifest.read? (← readStream (← IO.getStdin) "") with
  | none =>
    stderr.putStrLn "the standard input is no manifest"
    return 2
  | some items =>
    let terminal : Terminal := ⟨← IO.getEnv "TERM", (← IO.getEnv "NO_COLOR").isSome⟩
    let surroundings : Program.Surroundings := ⟨← stdout.isTty, terminal⟩
    let (ending, host) :=
      (Program.run Host.platform surroundings words).run (Machine.Manifest.host items)
    stdout.putStr host.printed
    for path in reportPaths words do
      match host.machine.tree.readText path.text with
      | .ok text => stderr.putStrLn (path.text ++ ":\n" ++ text)
      | .error _ => pure ()
    for complaint in ending.complaint do stderr.putStrLn complaint
    return ending.exitCode.toNat.toUInt32
