import Conformance.Text.Hidden
/-!
# Quoted text in diagnostics

A text shown inside a diagnostic stands between double quotes. The quote and the backslash are
escaped by a backslash, tab, line feed, carriage return and NUL have letter escapes, and every other
hidden character is written as `\u{…}` with its code point in lower-case hexadecimal.
-/

namespace Conformance.Text

/-- The lower-case hexadecimal digits of a number, without leading zeros. -/
def hexDigits (n : Nat) : List Char :=
  Nat.toDigits 16 n

def quotedChar (c : Char) : List Char :=
  match c with
  | '\x00' => ['\\', '0']
  | '\t' => ['\\', 't']
  | '\n' => ['\\', 'n']
  | '\r' => ['\\', 'r']
  | '"' => ['\\', '"']
  | '\\' => ['\\', '\\']
  | c => if isHidden c then ['\\', 'u', '{'] ++ hexDigits c.toNat ++ ['}'] else [c]

/-- A text between double quotes. -/
def quoted (s : String) : String :=
  String.ofList (['"'] ++ s.toList.flatMap quotedChar ++ ['"'])

end Conformance.Text
