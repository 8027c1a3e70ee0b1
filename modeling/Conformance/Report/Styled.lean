/-!
# Styled text

Terminal output as pieces of text between changes of style. A style holds until the next change, so
the same pieces give the coloured output, with an escape sequence for every change, and the plain
output, which leaves the changes out.
-/

namespace Conformance

inductive Colour where
  | red
  | green
  | yellow
  deriving DecidableEq, Repr

/-- A part of styled output. -/
inductive Piece where
  /-- Text in the current style. -/
  | text (s : String)
  /-- The style from here on. -/
  | style (colour : Colour) (bold : Bool)
  /-- Back to the plain style. -/
  | reset
  deriving DecidableEq, Repr

namespace Piece

/-- The digit of a colour in its escape sequence. -/
def colourDigit : Colour → Char
  | .red => '1'
  | .green => '2'
  | .yellow => '3'

/-- The escape sequence with the given parameter. -/
def escape (parameter : List Char) : String :=
  String.ofList (['\x1b', '['] ++ parameter ++ ['m'])

/-- A piece as a terminal with colours receives it: a style replaces the one before. -/
def coloured : Piece → String
  | .text s => s
  | .style colour bold =>
    escape ['0'] ++ (if bold then escape ['1'] else "") ++ escape ['3', colourDigit colour]
  | .reset => escape ['0']

/-- A piece without its style. -/
def plain : Piece → String
  | .text s => s
  | .style .. => ""
  | .reset => ""

/-- The coloured or the plain form of styled output. -/
def render (colours : Bool) (pieces : List Piece) : String :=
  String.join (pieces.map fun p ↦ if colours then p.coloured else p.plain)

def line (s : String) : Piece := .text (s ++ "\n")

end Piece

end Conformance
