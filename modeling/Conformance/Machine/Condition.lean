import Conformance.Machine.RawText
import Conformance.Machine.Task
/-!
# Conditions

The conditions that `test` decides: on files, on texts and on integers, joined by `-a`, `-o`, `!` and
parentheses. Texts are raw.
-/

namespace Conformance.Machine.Condition

/-- What a unary operator says of a path. -/
def ofFile (operator path : String) : Act Bool := do
  let info ← Act.inspect? (RawText.toText path) (operator ≠ "-h" && operator ≠ "-L")
  return match operator, info with
    | _, none => false
    | "-f", some i => i.isRegular
    | "-d", some i => i.isDirectory
    | "-h", some i | "-L", some i => i.isLink
    | "-x", some i => i.isExecutable
    | "-s", some i => i.size ≠ 0
    | "-p", some _ | "-S", some _ | "-b", some _ | "-u", some _ | "-g", some _ => false
    | "-c", some i => !i.isRegular && !i.isDirectory && !i.isLink
    | _, some _ => true

/-- The operators on one path. -/
def fileOperators : List String :=
  ["-e", "-f", "-d", "-h", "-L", "-r", "-w", "-x", "-s", "-p", "-S", "-b", "-c", "-u", "-g", "-O",
    "-G"]

def integer (s : String) : Except String Int :=
  let t := s.trimAscii.toString
  let digits := if t.startsWith "-" || t.startsWith "+" then (t.drop 1).toString else t
  match digits.isNat, digits.toNat? with
  | true, some n => .ok (if t.startsWith "-" then -n else n)
  | _, _ => .error ("Illegal number: " ++ s)

/-- What a binary operator says of two operands, if it is one. -/
def ofPair? (a operator b : String) : Option (Except String Bool) :=
  let compare (f : Int → Int → Bool) : Option (Except String Bool) := some (do
    let x ← integer a
    return f x (← integer b))
  match operator with
  | "=" | "==" => some (.ok (a = b))
  | "!=" => some (.ok (a ≠ b))
  | "<" => some (.ok (a < b))
  | ">" => some (.ok (b < a))
  | "-eq" => compare fun x y ↦ x = y
  | "-ne" => compare fun x y ↦ x ≠ y
  | "-lt" => compare fun x y ↦ x < y
  | "-le" => compare fun x y ↦ x ≤ y
  | "-gt" => compare fun x y ↦ y < x
  | "-ge" => compare fun x y ↦ y ≤ x
  | _ => none

/-- What deciding a condition gives: the answer with the words that are left, or an error. -/
abbrev Decision := Except String (Bool × List String)

mutual

/-- Decides terms joined by `-o`. -/
def disjunction : Nat → List String → Act Decision
  | 0, _ => return .error "argument expected"
  | fuel + 1, ws => do
    match ← conjunction fuel ws with
    | .ok (a, "-o" :: r) =>
      match ← disjunction fuel r with
      | .ok (b, r) => return .ok (a || b, r)
      | .error e => return .error e
    | d => return d

/-- Decides terms joined by `-a`. -/
def conjunction : Nat → List String → Act Decision
  | 0, _ => return .error "argument expected"
  | fuel + 1, ws => do
    match ← term fuel ws with
    | .ok (a, "-a" :: r) =>
      match ← conjunction fuel r with
      | .ok (b, r) => return .ok (a && b, r)
      | .error e => return .error e
    | d => return d

def term : Nat → List String → Act Decision
  | 0, _ => return .error "argument expected"
  | fuel + 1, ws => do
    match ws with
    | [] => return .error "argument expected"
    | [a] => return .ok (!a.isEmpty, [])
    | a :: b :: r =>
      match r with
      | c :: rest =>
        match ofPair? a b c with
        | some (.ok v) => return .ok (v, rest)
        | some (.error e) => return .error e
        | none => unary fuel a (b :: r)
      | [] => unary fuel a [b]

/-- Decides a term that begins with an operator. -/
def unary : Nat → String → List String → Act Decision
  | 0, _, _ => return .error "argument expected"
  | fuel + 1, a, ws => do
    if a = "!" then
      match ← term fuel ws with
      | .ok (v, r) => return .ok (!v, r)
      | .error e => return .error e
    else if a = "(" then
      match ← disjunction fuel ws with
      | .ok (v, ")" :: r) => return .ok (v, r)
      | .ok _ => return .error "closing paren expected"
      | .error e => return .error e
    else
      match ws with
      | [] => return .ok (!a.isEmpty, [])
      | b :: r =>
        if a = "-n" then return .ok (!b.isEmpty, r)
        else if a = "-z" then return .ok (b.isEmpty, r)
        else if a = "-t" then return .ok (false, r)
        else if fileOperators.contains a then return .ok (← ofFile a b, r)
        else return .ok (!a.isEmpty, ws)

end

/-- Decides a condition. Few words are read by their number. -/
def decide (ws : List String) : Act (Except String Bool) := do
  match ws with
  | [] => return .ok false
  | ["!", a] => return .ok a.isEmpty
  | _ =>
    match ← disjunction (8 * ws.length + 8) ws with
    | .ok (v, []) => return .ok v
    | .ok (_, w :: _) => return .error (w ++ ": unexpected operator")
    | .error e => return .error e

/-- The exit code of `test` under a name, which prints its errors after `place`. -/
def run (place : String) (ws : List String) : Act UInt8 := do
  let isBracket := (place.endsWith "[")
  let words : Except String (List String) :=
    if isBracket then
      if ws.getLast? = some "]" then .ok ws.dropLast else .error "missing ]"
    else .ok ws
  let answer ← match words with
    | .error e => pure (Except.error e)
    | .ok ws => decide ws
  match answer with
  | .ok true => return 0
  | .ok false => return 1
  | .error e =>
    let _ ← Act.write 2 (RawText.toBytes (place ++ ": " ++ e ++ "\n"))
    return 2

end Conformance.Machine.Condition
