/-!
# Escapes and formats

The escapes that `echo` and `printf` know, and the formats of `printf`. A format is used again as long
as arguments are left; one that is missing counts as an empty text or as zero. Texts are raw.
-/

namespace Conformance.Machine.Format

/-- The value of up to three octal digits, with what follows them. -/
def octal (cs : List Char) : Nat × List Char :=
  let digits := (cs.take 3).takeWhile fun c ↦ '0' ≤ c && c ≤ '7'
  (digits.foldl (fun n c ↦ n * 8 + (c.toNat - '0'.toNat)) 0 % 256, cs.drop digits.length)

/-- The character that an escape stands for after its backslash, with what follows it. A backslash
that begins no escape stands for itself. -/
def escape : List Char → Char × List Char
  | [] => ('\\', [])
  | c :: r =>
    match c with
    | 'a' => ('\x07', r)
    | 'b' => ('\x08', r)
    | 'e' => ('\x1b', r)
    | 'f' => ('\x0c', r)
    | 'n' => ('\n', r)
    | 'r' => ('\r', r)
    | 't' => ('\t', r)
    | 'v' => ('\x0b', r)
    | '\\' => ('\\', r)
    | _ =>
      if '0' ≤ c && c ≤ '7' then (Char.ofNat (octal (c :: r)).1, (octal (c :: r)).2)
      else ('\\', c :: r)

/-- The text that a text with escapes stands for, and whether it asks for nothing to follow. A zero
may stand before an octal number here. -/
def unescape : Nat → List Char → List Char × Bool
  | 0, _ | _, [] => ([], false)
  | _ + 1, '\\' :: 'c' :: _ => ([], true)
  | fuel + 1, '\\' :: r =>
    let r := match r with
      | '0' :: d :: more => if '0' ≤ d && d ≤ '7' then d :: more else r
      | _ => r
    let (c, r) := escape r
    let (cs, stops) := unescape fuel r
    (c :: cs, stops)
  | fuel + 1, c :: r =>
    let (cs, stops) := unescape fuel r
    (c :: cs, stops)

/-- What `echo` prints for its arguments, with escapes. -/
def echo (arguments : List String) : String :=
  let (endsLine, words) := match arguments with
    | "-n" :: r => (false, r)
    | r => (true, r)
  let cs := (" ".intercalate words).toList
  let (out, stops) := unescape cs.length cs
  String.ofList out ++ (if endsLine && !stops then "\n" else "")

structure Conversion where
  flags : List Char
  width : Nat
  precision : Option Nat
  kind : Char

/-- A text brought to the width of a conversion. -/
def Conversion.pad (x : Conversion) (s : String) : String :=
  let fill := String.ofList (List.replicate (x.width - s.length) ' ')
  if x.flags.contains '-' then s ++ fill else fill ++ s

/-- The sign and the digits of a number brought to the width of a conversion. -/
def Conversion.padNumber (x : Conversion) (sign digits : String) : String :=
  let digits := match x.precision with
    | some p => String.ofList (List.replicate (p - digits.length) '0') ++ digits
    | none => digits
  if x.flags.contains '0' && !x.flags.contains '-' && x.precision.isNone then
    sign ++ String.ofList (List.replicate (x.width - sign.length - digits.length) '0') ++ digits
  else x.pad (sign ++ digits)

/-- The number that an argument spells. Without one there is an error. -/
def integer (s : String) : Int × Option String :=
  match s.toList with
  | '\'' :: c :: _ | '"' :: c :: _ => (c.toNat, none)
  | cs =>
    let cs := cs.dropWhile (·.isWhitespace)
    let isNegative := cs.head? = some '-'
    let body := if isNegative || cs.head? = some '+' then cs.drop 1 else cs
    let (base, digits) := match body with
      | '0' :: 'x' :: r | '0' :: 'X' :: r => (16, r)
      | '0' :: r => (8, '0' :: r)
      | r => (10, r)
    let value (c : Char) : Nat :=
      if c.isDigit then c.toNat - '0'.toNat
      else if 'a' ≤ c.toLower && c.toLower ≤ 'f' then c.toLower.toNat - 'a'.toNat + 10 else 99
    let read := digits.takeWhile fun c ↦ value c < base
    let n := read.foldl (fun n c ↦ n * base + value c) 0
    let n : Int := if isNegative then -n else n
    if s.isEmpty then (0, none)
    else if read.isEmpty then (0, some (s ++ ": expected numeric value"))
    else if read.length < digits.length then (n, some (s ++ ": not completely converted"))
    else (n, none)

/-- The text of an argument under a conversion, with an error, and whether nothing may follow. -/
def Conversion.apply (x : Conversion) (argument : String) : String × Option String × Bool :=
  match x.kind with
  | 's' => (x.pad (match x.precision with
      | some p => (argument.take p).toString
      | none => argument), none, false)
  | 'b' =>
    let (cs, stops) := unescape argument.length argument.toList
    (x.pad (String.ofList cs), none, stops)
  | 'c' => (x.pad (argument.take 1).toString, none, false)
  | kind =>
    let (n, e) := integer argument
    let unsigned := (n % (UInt64.size : Int)).toNat
    let text := match kind with
      | 'o' => x.padNumber "" (String.ofList (Nat.toDigits 8 unsigned))
      | 'x' => x.padNumber "" (String.ofList (Nat.toDigits 16 unsigned))
      | 'X' => x.padNumber "" (String.ofList (Nat.toDigits 16 unsigned)).toUpper
      | 'u' => x.padNumber "" (toString unsigned)
      | _ =>
        let sign :=
          if n < 0 then "-" else if x.flags.contains '+' then "+"
          else if x.flags.contains ' ' then " " else ""
        x.padNumber sign (toString n.natAbs)
    (text, e, false)

structure Printed where
  text : List Char
  /-- What was wrong with the arguments. -/
  errors : List String
  /-- The arguments that are left. -/
  rest : List String
  /-- Whether nothing may follow. -/
  stops : Bool
  /-- Whether the format takes arguments. -/
  takesArguments : Bool

/-- A printed text with another before it. -/
def Printed.after (p : Printed) (s : List Char) : Printed := { p with text := s ++ p.text }

def printOnce : Nat → List Char → List String → Printed
  | 0, _, arguments | _, [], arguments => ⟨[], [], arguments, false, false⟩
  | fuel + 1, '\\' :: r, arguments =>
    let (c, r) := escape r
    (printOnce fuel r arguments).after [c]
  | fuel + 1, '%' :: '%' :: r, arguments => (printOnce fuel r arguments).after ['%']
  | fuel + 1, '%' :: r, arguments =>
    let flags := r.takeWhile ("-+ 0#".toList.contains ·)
    let r := r.drop flags.length
    let (width, r, arguments) := match r with
      | '*' :: r => ((integer (arguments.head?.getD "")).1.natAbs, r, arguments.drop 1)
      | r =>
        let digits := r.takeWhile Char.isDigit
        (((String.ofList digits).toNat?).getD 0, r.drop digits.length, arguments)
    let (precision, r) := match r with
      | '.' :: r =>
        let digits := r.takeWhile Char.isDigit
        (some (((String.ofList digits).toNat?).getD 0), r.drop digits.length)
      | r => (none, r)
    match r with
    | [] => ⟨[], ["%: invalid directive"], arguments, true, true⟩
    | kind :: r =>
      if !"sbcdiouxX".toList.contains kind then
        ⟨[], ["%" ++ String.singleton kind ++ ": invalid directive"], arguments, true, true⟩
      else
        let (s, e, stops) :=
          Conversion.apply ⟨flags, width, precision, kind⟩ (arguments.head?.getD "")
        if stops then ⟨s.toList, e.toList, [], true, true⟩
        else
          let p := printOnce fuel r (arguments.drop 1)
          { p with text := s.toList ++ p.text, errors := e.toList ++ p.errors, takesArguments := true }
  | fuel + 1, c :: r, arguments => (printOnce fuel r arguments).after [c]

def printAll (format : List Char) : Nat → List String → List Char × List String
  | 0, _ => ([], [])
  | fuel + 1, arguments =>
    let p := printOnce format.length format arguments
    if p.stops || !p.takesArguments || p.rest.isEmpty then (p.text, p.errors)
    else
      let (text, errors) := printAll format fuel p.rest
      (p.text ++ text, p.errors ++ errors)

/-- What a format prints for its arguments, and what was wrong with them. -/
def printf (format : String) (arguments : List String) : String × List String :=
  let (text, errors) := printAll format.toList (arguments.length + 1) arguments
  (String.ofList text, errors)

end Conformance.Machine.Format
