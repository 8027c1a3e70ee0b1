import Conformance.Machine.Launch
import Conformance.Machine.Signal
import Conformance.Machine.Utility.Stream
/-!
# Utilities for processes

The utilities that pass time, send signals, and run other programs in changed surroundings.
-/

namespace Conformance.Machine

namespace Utility

/-- The nanoseconds that a time span of `sleep` names. -/
def span? (s : String) : Option Nat := do
  let digits := s.toList.takeWhile fun c ↦ c.isDigit || c == '.'
  let unit ← match String.ofList (s.toList.drop digits.length) with
    | "" | "s" => some 1
    | "m" => some 60
    | "h" => some 3600
    | "d" => some 86400
    | _ => none
  let (whole, fraction) ← match (String.ofList digits).splitOn "." with
    | [w] => if w.isEmpty then none else some (w, "")
    | [w, f] => if w.isEmpty && f.isEmpty then none else some (w, f)
    | _ => none
  let nanos := ((fraction ++ "000000000").take 9).toString
  return unit * (((whole.toNat?).getD 0) * 1000000000 + ((nanos.toNat?).getD 0))

def sleep : Utility := fun ws _ ↦ do
  match ws.drop 1 with
  | [] =>
    complain "sleep" "missing operand"
    return 1
  | spans =>
    match spans.find? fun s ↦ (span? s).isNone with
    | some s =>
      complain "sleep" ("invalid time interval '" ++ s ++ "'\n" ++
        "Try 'sleep --help' for more information.")
      return 1
    | none =>
      let _ ← Act.call (.sleep ((spans.filterMap span?).foldl (· + ·) 0))
      return 0

/-- The directories of the search path of an environment. -/
def searchPath (environment : List (String × String)) : List String :=
  ((environment.lookup "PATH").getD "/usr/bin:/bin").splitOn ":"

/-- Runs a program in a session of its own. -/
def setsid : Utility := fun ws environment ↦ do
  let (flags, command) := ((ws.drop 1).takeWhile (·.startsWith "-"),
    (ws.drop 1).dropWhile (·.startsWith "-"))
  let program : Act UInt8 := do
    let _ ← Act.call .newSession
    Launch.become (searchPath environment) command environment fun e ↦
      complain "setsid" ("failed to execute " ++ command.head?.getD "" ++ ": " ++ e)
  let pid ← Act.processNumber
  match ← Act.call .newSession with
  | .failed _ =>
    let child ← Act.fork (program fun code ↦ .exit code)
    if flags.contains "-w" || flags.contains "--wait" then
      match ← Act.call (.wait (.child child) false) with
      | .ended _ status => return ((status >>> 8) &&& 0xFF).toUInt8
      | _ => return pid.toUInt8
    return 0
  | _ => program

/-- Runs a program in a changed environment, or prints the environment. -/
def env : Utility := fun ws environment ↦ do
  let words := ws.drop 1
  let isCleared := words.head? = some "-i"
  let words := if isCleared then words.drop 1 else words
  let settings := words.takeWhile (·.contains '=')
  let start := if isCleared then [] else environment
  let environment := settings.foldl (fun es s ↦
    let name := String.ofList (s.toList.takeWhile (· ≠ '='))
    (name, (s.drop (name.length + 1)).toString) :: es.filter (·.1 ≠ name)) start
  match words.drop settings.length with
  | [] =>
    out (String.join (environment.reverse.map fun (k, v) ↦ k ++ "=" ++ v ++ "\n"))
    return 0
  | command =>
    Launch.become (searchPath environment) command environment fun e ↦
      complain "env" ("'" ++ command.head?.getD "" ++ "': " ++ e)

def kill : Utility := fun ws _ ↦ do
  let (signal, targets) : Option Nat × List String := match ws.drop 1 with
    | "-s" :: s :: r => (Signal.ofName? s, r)
    | "--" :: r => (some 15, r)
    | w :: r =>
      if w.startsWith "-" then (Signal.ofName? (w.drop 1).toString, r) else (some 15, w :: r)
    | [] => (some 15, [])
  let targets := if targets.head? = some "--" then targets.drop 1 else targets
  match signal with
  | none =>
    complain "kill" "invalid signal"
    return 1
  | some signal =>
    let mut code := 0
    for t in targets do
      match t.toInt? with
      | some pid =>
        match ← Act.attempt (.kill pid signal) with
        | .ok () => pure ()
        | .error e =>
          complain "kill" ("(" ++ t ++ ") - " ++ errorText e)
          code := 1
      | none =>
        complain "kill" ("invalid argument " ++ t)
        code := 1
    return code

end Utility

end Conformance.Machine
