import Conformance.Tally
/-!
# Writing a snapshot

A snapshot is written as JSON over several lines, two blanks per level, its members in the order of
the schema. Inside strings the quote, the backslash and the control characters are escaped, by a
letter where there is one and by four lower-case hexadecimal digits otherwise; every other character
stands for itself.
-/

namespace Conformance.Snapshot

/-- The hexadecimal digit of a number below sixteen, in lower case. -/
def hexChar (n : Nat) : Char :=
  if n < 10 then Char.ofNat (48 + n) else Char.ofNat (87 + n)

def escapedChar (c : Char) : List Char :=
  if c = '"' then ['\\', '"']
  else if c = '\\' then ['\\', '\\']
  else if c = '\x08' then ['\\', 'b']
  else if c = '\x0c' then ['\\', 'f']
  else if c = '\n' then ['\\', 'n']
  else if c = '\r' then ['\\', 'r']
  else if c = '\t' then ['\\', 't']
  else if c.toNat < 0x20 then
    ['\\', 'u', '0', '0', hexChar (c.toNat / 16), hexChar (c.toNat % 16)]
  else [c]

/-- A string with its quotes. -/
def stringChars (s : String) : List Char :=
  '"' :: s.toList.flatMap escapedChar ++ ['"']

/-- A line feed and the indentation of a level. -/
def newline (level : Nat) : List Char := '\n' :: List.replicate (2 * level) ' '

/-- A member of an object: its key, a colon and a blank, its value. -/
def memberChars (key : String) (value : List Char) : List Char :=
  stringChars key ++ [':', ' '] ++ value

/-- Items between brackets, one per line; brackets without items stay closed up. -/
def blockChars (opening closing : Char) (level : Nat) (items : List (List Char)) : List Char :=
  if items = [] then [opening, closing]
  else
    [opening] ++ List.intercalate [','] (items.map (newline (level + 1) ++ ·)) ++ newline level ++
      [closing]

def sampleChars (f : FailureSample) : List Char :=
  blockChars '{' '}' 2
    [memberChars "test" (stringChars f.test), memberChars "error" (stringChars f.error)]

def countChars (n : UInt64) : List Char := Nat.toDigits 10 n.toNat

def tallyChars (t : Tally) : List Char :=
  blockChars '{' '}' 0
    [memberChars "passed" (countChars t.passed), memberChars "failed" (countChars t.failed),
      memberChars "skipped" (countChars t.skipped), memberChars "total" (countChars t.total),
      memberChars "failures" (blockChars '[' ']' 1 (t.failures.toList.map sampleChars))]

def render (t : Tally) : String := String.ofList (tallyChars t)

end Conformance.Snapshot
