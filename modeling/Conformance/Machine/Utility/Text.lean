import Conformance.Machine.Format
import Conformance.Machine.Utility.Stream
/-!
# Utilities for texts

The utilities that print, copy, cut, count and change texts.
-/

namespace Conformance.Machine

namespace Utility

/-- Prints its words. Escapes are interpreted only if asked for. -/
def echo : Utility := fun ws _ ↦ do
  let isOption (w : String) : Bool :=
    w.length > 1 && w.startsWith "-" && (w.drop 1).toString.all ("neE".toList.contains ·)
  let chosen := (ws.drop 1).takeWhile isOption
  let words := (ws.drop 1).drop chosen.length
  let letters := chosen.flatMap String.toList
  let interprets := (letters.reverse.find? fun c ↦ c == 'e' || c == 'E') = some 'e'
  let endsLine := !letters.contains 'n'
  let text := " ".intercalate words
  if interprets then
    let (cs, stops) := Format.unescape text.length text.toList
    out (String.ofList cs ++ (if endsLine && !stops then "\n" else ""))
  else out (text ++ (if endsLine then "\n" else ""))
  return 0

def printf : Utility := fun ws _ ↦ do
  match ws.drop 1 with
  | [] =>
    complain "printf" "missing operand"
    return 1
  | format :: arguments =>
    let (text, errors) := Format.printf format arguments
    out text
    for e in errors do complain "printf" e
    return if errors.isEmpty then 0 else 1

/-- Copies its inputs to its output. -/
def cat : Utility := fun ws _ ↦
  forInputs "cat" (options (ws.drop 1)).2 fun _ fd ↦
    foldInput fd (fun () b ↦ do let _ ← Act.write 1 b; return ()) Act.boundless ()

/-- Copies the first bytes of a descriptor. -/
def copyBytes (fd : Nat) : Nat → Nat → Act (Except IoError Unit)
  | 0, _ => return .ok ()
  | fuel + 1, count => do
    if count = 0 then return .ok ()
    match ← Act.read fd (min count 8192) with
    | .error e => return .error e
    | .ok b =>
      if b.isEmpty then return .ok ()
      let _ ← Act.write 1 b
      copyBytes fd fuel (count - b.size)

/-- Copies the first lines of a descriptor. -/
def copyLines (fd : Nat) : Nat → Nat → Act (Except IoError Unit)
  | 0, _ => return .ok ()
  | fuel + 1, count => do
    if count = 0 then return .ok ()
    match ← Act.read fd 8192 with
    | .error e => return .error e
    | .ok b =>
      if b.isEmpty then return .ok ()
      let lines := (RawText.ofBytes b).splitOn "\n"
      if lines.length > count then
        out ("\n".intercalate (lines.take count) ++ "\n")
        return .ok ()
      let _ ← Act.write 1 b
      copyLines fd fuel (count - (lines.length - 1))

/-- The counts that `-c` and `-n` ask for, and the other words. -/
def counts : List String → (Option String × Option String) × List String
  | [] => ((none, none), [])
  | "-c" :: v :: r => let ((_, n), ws) := counts r; ((some v, n), ws)
  | "-n" :: v :: r => let ((c, _), ws) := counts r; ((c, some v), ws)
  | w :: r =>
    let ((c, n), ws) := counts r
    if w.startsWith "-c" then ((some (w.drop 2).toString, n), ws)
    else if w.startsWith "-n" then ((c, some (w.drop 2).toString), ws)
    else if w.startsWith "-" && w.length > 1 then ((c, some (w.drop 1).toString), ws)
    else ((c, n), w :: ws)

def head : Utility := fun ws _ ↦
  let ((bytes, lines), paths) := counts (ws.drop 1)
  forInputs "head" paths fun _ fd ↦
    match bytes with
    | some c => copyBytes fd Act.boundless ((c.toNat?).getD 0)
    | none => copyLines fd Act.boundless ((lines.bind String.toNat?).getD 10)

def tail : Utility := fun ws _ ↦
  let ((bytes, lines), paths) := counts (ws.drop 1)
  forInputs "tail" paths fun _ fd ↦ do
    match ← readAll fd with
    | .error e => return .error e
    | .ok s =>
      match bytes with
      | some c =>
        if c.startsWith "+" then out (s.drop ((((c.drop 1).toString.toNat?).getD 1) - 1)).toString
        else out (s.drop (s.length - (c.toNat?).getD 0)).toString
      | none =>
        let ends := s.endsWith "\n"
        let all := (if ends then (s.dropEnd 1).toString else s).splitOn "\n"
        let all := if s.isEmpty then [] else all
        let kept := match lines with
          | some l =>
            if l.startsWith "+" then all.drop ((((l.drop 1).toString.toNat?).getD 1) - 1)
            else all.drop (all.length - (l.toNat?).getD 10)
          | none => all.drop (all.length - 10)
        out ("\n".intercalate kept ++ (if ends && !kept.isEmpty then "\n" else ""))
      return .ok ()

/-- The characters that a set of `tr` names. -/
def characters : Nat → List Char → List Char
  | 0, _ | _, [] => []
  | fuel + 1, '\\' :: r =>
    let (c, r) := Format.escape r
    range fuel c r
  | fuel + 1, '[' :: ':' :: r =>
    let name := String.ofList (r.takeWhile (· ≠ ':'))
    let all := (List.range 256).map Char.ofNat
    let named := match name with
      | "upper" => all.filter Char.isUpper
      | "lower" => all.filter Char.isLower
      | "digit" => all.filter Char.isDigit
      | "alpha" => all.filter Char.isAlpha
      | "alnum" => all.filter Char.isAlphanum
      | "space" => [' ', '\t', '\n', '\x0b', '\x0c', '\r']
      | _ => []
    named ++ characters fuel (r.drop (name.length + 2))
  | fuel + 1, c :: r => range fuel c r
where
  /-- A character, or the range that it begins. -/
  range (fuel : Nat) (c : Char) : List Char → List Char
    | '-' :: d :: r =>
      ((List.range (d.toNat + 1 - c.toNat)).map fun k ↦ Char.ofNat (c.toNat + k)) ++
        characters fuel r
    | r => c :: characters fuel r

/-- Replaces or deletes characters of its input. -/
def tr : Utility := fun ws _ ↦ do
  let (os, sets) := options (ws.drop 1)
  let set (k : Nat) : List Char :=
    let cs := ((sets[k]?).getD "").toList
    characters cs.length cs
  let isComplement := os.contains 'c' || os.contains 'C'
  let isIn (c : Char) : Bool := (set 0).contains c != isComplement
  let table : Array Char := ((List.range 256).map fun n ↦
    let c := Char.ofNat n
    let images := set 1
    if !isIn c then c
    else if isComplement then (images.getLast?).getD c
    else ((images[((set 0).idxOf c)]?).getD ((images.getLast?).getD c))).toArray
  let squeezed := if sets.length > 1 then set 1 else set 0
  let last ← foldInput 0 (fun (previous : Option Char) b ↦ do
    let cs := (RawText.ofBytes b).toList
    let cs := if os.contains 'd' then cs.filter (!isIn ·)
      else if sets.length > 1 then cs.map fun c ↦ table.getD c.toNat c else cs
    if os.contains 's' then
      let (previous, kept) := cs.foldl (fun (previous, kept) c ↦
        if previous = some c && squeezed.contains c then (previous, kept)
        else (some c, c :: kept)) (previous, [])
      out (String.ofList kept.reverse)
      return previous
    else
      out (String.ofList cs)
      return previous) Act.boundless none
  return match last with
    | .ok _ => 0
    | .error _ => 1

/-- How wide `wc` prints its numbers: as wide as the sizes of its files, or seven characters if it
reads anything else. -/
def countWidth (paths : List String) (isSingle : Bool) : Act Nat := do
  if isSingle && paths.length ≤ 1 then return 1
  let mut total := 0
  let mut isKnown := !paths.isEmpty
  for path in paths do
    match ← Act.inspect? (RawText.toText path) true with
    | some info => if info.isRegular then total := total + info.size else isKnown := false
    | none => pure ()
  return max (toString total).length (if isKnown then 1 else 7)

def wc : Utility := fun ws _ ↦ do
  let (os, paths) := options (ws.drop 1)
  let shown := ['l', 'w', 'c'].filter fun c ↦ os.isEmpty || os.contains c
  let width ← countWidth paths (shown.length = 1)
  let line (counts : List (Char × Nat)) (name : String) : String :=
    let texts := shown.map fun c ↦
      let text := toString ((counts.lookup c).getD 0)
      String.ofList (List.replicate (width - text.length) ' ') ++ text
    " ".intercalate texts ++ (if name = "-" then "" else " " ++ name) ++ "\n"
  let countsOf (s : String) : List (Char × Nat) :=
    let words := (s.map fun c ↦ if c.isWhitespace then ' ' else c).splitOn " "
    [('l', s.toList.count '\n'), ('w', (words.filter (· ≠ "")).length), ('c', s.length)]
  let code ← forInputs "wc" paths fun path fd ↦ do
    match ← readAll fd with
    | .error e => return .error e
    | .ok s =>
      out (line (countsOf s) path)
      return .ok ()
  return code

/-- Copies its input to its output and to files. -/
def tee : Utility := fun ws _ ↦ do
  let (os, paths) := options (ws.drop 1)
  let mut fds := [1]
  let mut code := 0
  for path in paths do
    match ← Act.openFile (RawText.toText path) (if os.contains 'a' then .append else .write) with
    | .ok fd => fds := fds ++ [fd]
    | .error e =>
      complain "tee" (path ++ ": " ++ errorText e)
      code := 1
  let targets := fds
  let _ ← foldInput 0 (fun () b ↦ do for fd in targets do let _ ← Act.write fd b) Act.boundless ()
  return code

/-- Prints a text again and again. -/
def repeatLine (line : ByteArray) : Nat → Act UInt8
  | 0 => return 0
  | fuel + 1 => do
    match ← Act.write 1 line with
    | .ok () => repeatLine line fuel
    | .error _ => return 1

/-- Prints a line without end. -/
def yes : Utility := fun ws _ ↦
  let line := (if ws.length ≤ 1 then "y" else " ".intercalate (ws.drop 1)) ++ "\n"
  let block := String.join (List.replicate (8192 / line.length + 1) line)
  repeatLine (RawText.toBytes block) Act.boundless

def seq : Utility := fun ws _ ↦ do
  let ns := (ws.drop 1).map String.toInt?
  match ns with
  | [some b] => out (numbers 1 1 b)
  | [some a, some b] => out (numbers a 1 b)
  | [some a, some s, some b] => out (numbers a s b)
  | _ =>
    complain "seq" "invalid argument"
    return 1
  return 0
where
  /-- The numbers from `a` to `b` in steps, a line each. -/
  numbers (a step b : Int) : String :=
    let count := if 0 < step then ((b - a) / step + 1).toNat
      else if step < 0 then ((a - b) / (-step) + 1).toNat else 0
    String.join ((List.range count).map fun (k : Nat) ↦ toString (a + step * k) ++ "\n")

/-- Prints the last name of a path, without a given ending. -/
def basename : Utility := fun ws _ ↦ do
  let path := (ws[1]?).getD ""
  let trimmed := (path.dropEndWhile (· == '/')).toString
  let last := ((trimmed.splitOn "/").getLast?).getD ""
  let name := if trimmed.isEmpty && !path.isEmpty then "/" else last
  let ending := (ws[2]?).getD ""
  out ((if name.endsWith ending && name ≠ ending then (name.dropEnd ending.length).toString else name)
    ++ "\n")
  return 0

/-- Prints a path without its last name. -/
def dirname : Utility := fun ws _ ↦ do
  let path := (ws[1]?).getD ""
  let trimmed := (path.dropEndWhile (· == '/')).toString
  let parts := trimmed.splitOn "/"
  let directory := (("/".intercalate parts.dropLast).dropEndWhile (· == '/')).toString
  out ((if parts.length ≤ 1 then (if trimmed.isEmpty && !path.isEmpty then "/" else ".")
    else if directory.isEmpty then "/" else directory) ++ "\n")
  return 0

end Utility

end Conformance.Machine
