import Conformance.Proofs.Report.Failures
/-!
# Terminals

A terminal with colours takes a text apart into characters and colour sequences. A sequence is not
shown; it sets the pen that the characters behind it are written with. To delete the sequences from
a text is to keep the characters that a terminal shows.

Styled output is read back from its coloured form piece by piece, as long as the texts in it hold no
escape character of their own. What a terminal shows of it can then be told from the pieces.
-/

namespace Conformance

/-- The character that begins every escape sequence. -/
def escapeChar : Char := '\x1b'

theorem escapeChar_notMem_append {s s' : String} :
    escapeChar ∉ (s ++ s').toList ↔ escapeChar ∉ s.toList ∧ escapeChar ∉ s'.toList := by
  rw [String.toList_append, List.mem_append, not_or]

namespace Terminal

/-! ## Sequences -/

/-- The digits of the colour sequence that a text begins with, if it does. -/
def sequence? : List Char → Option (List Char)
  | '\x1b' :: '[' :: cs =>
    let digits := cs.takeWhile Char.isDigit
    if digits ≠ [] ∧ (cs.drop digits.length).head? = some 'm' then some digits else none
  | _ => none

/-- What a text is made of. -/
inductive Token where
  | char (c : Char)
  | sequence (digits : List Char)
  deriving DecidableEq, Repr

/-- The tokens of a text, without so many characters at its front that belong to a sequence. -/
def tokensFrom : ℕ → List Char → List Token
  | _, [] => []
  | skip + 1, _ :: cs => tokensFrom skip cs
  | 0, c :: cs =>
    match sequence? (c :: cs) with
    | some digits => .sequence digits :: tokensFrom (digits.length + 2) cs
    | none => .char c :: tokensFrom 0 cs

/-- The tokens of a text. -/
def tokens (cs : List Char) : List Token := tokensFrom 0 cs

/-- The character that a token shows. -/
def Token.char? : Token → Option Char
  | .char c => some c
  | .sequence _ => none

/-- A text without its colour sequences. -/
def strip (s : String) : String := String.ofList ((tokens s.toList).filterMap Token.char?)

theorem tokensFrom_append (xs cs : List Char) : tokensFrom xs.length (xs ++ cs) = tokens cs := by
  induction xs with
  | nil => rfl
  | cons x xs ih => exact ih

theorem sequence?_of_ne {c : Char} (h : c ≠ escapeChar) (cs : List Char) :
    sequence? (c :: cs) = none := by
  rw [sequence?]
  rintro _ ⟨⟩
  exact h rfl

/-- Without an escape character a text is made of its characters. -/
theorem tokens_append {s : List Char} (h : escapeChar ∉ s) (cs : List Char) :
    tokens (s ++ cs) = s.map .char ++ tokens cs := by
  induction s with
  | nil => rfl
  | cons c s ih =>
    rw [List.mem_cons, not_or] at h
    rw [tokens, List.cons_append, tokensFrom, sequence?_of_ne (Ne.symm h.1)]
    exact congrArg (Token.char c :: ·) (ih h.2)

theorem tokens_escape {digits : List Char} (hne : digits ≠ []) (h : ∀ c ∈ digits, c.isDigit)
    (cs : List Char) :
    tokens ((Piece.escape digits).toList ++ cs) = .sequence digits :: tokens cs := by
  have htext : (Piece.escape digits).toList ++ cs
      = '\x1b' :: (('[' :: digits ++ ['m']) ++ cs) := by
    simp [Piece.escape]
  have hdigits : (digits ++ 'm' :: cs).takeWhile Char.isDigit = digits := by
    rw [List.takeWhile_append_of_pos h, List.takeWhile_cons_of_neg (by decide), List.append_nil]
  have hsequence : sequence? ('\x1b' :: (('[' :: digits ++ ['m']) ++ cs)) = some digits := by
    rw [List.append_assoc, List.cons_append, sequence?, List.singleton_append, hdigits,
      List.drop_left, if_pos ⟨hne, rfl⟩]
  have hlength : digits.length + 2 = ('[' :: digits ++ ['m']).length := by simp
  rw [htext, tokens, tokensFrom, hsequence]
  dsimp only
  rw [hlength, tokensFrom_append]

/-! ## Pens -/

/-- What characters are written with: one of eight colours, or that of the terminal. -/
structure Pen where
  colour : Option ℕ
  bold : Bool
  deriving DecidableEq, Repr

namespace Pen

/-- The pen after a reset. -/
def plain : Pen := ⟨none, false⟩

/-- The pen after the sequence with a number. One that is neither the reset nor about the things
that a pen has leaves it as it is. -/
def set (pen : Pen) (n : ℕ) : Pen :=
  if n = 0 then plain
  else if n = 1 then { pen with bold := true }
  else if 30 ≤ n ∧ n ≤ 37 then { pen with colour := some (n - 30) }
  else pen

end Pen

/-- The pen after a token. -/
def Token.pen (pen : Pen) : Token → Pen
  | .char _ => pen
  | .sequence digits => pen.set (Nat.ofDigitChars 10 digits 0)

/-- The pen after a text. -/
def penAfter (pen : Pen) (s : String) : Pen := (tokens s.toList).foldl Token.pen pen

/-- What a terminal shows of some tokens, each character with the pen it is written with. -/
def shownOf (pen : Pen) : List Token → List (Char × Pen)
  | [] => []
  | .char c :: ts => (c, pen) :: shownOf pen ts
  | .sequence digits :: ts => shownOf (pen.set (Nat.ofDigitChars 10 digits 0)) ts

/-- What a terminal shows of a text. -/
def shown (pen : Pen) (s : String) : List (Char × Pen) := shownOf pen (tokens s.toList)

/-- A text written with one pen. -/
def written (pen : Pen) (s : String) : List (Char × Pen) := s.toList.map (·, pen)

@[simp] theorem written_empty (pen : Pen) : written pen "" = [] := rfl

theorem written_append (pen : Pen) (s s' : String) :
    written pen (s ++ s') = written pen s ++ written pen s' := by
  rw [written, String.toList_append, List.map_append, ← written, ← written]

/-- What is written is bold as a whole or not at all. -/
theorem filter_bold_written (pen : Pen) (s : String) :
    (written pen s).filter (·.2.bold) = if pen.bold then written pen s else [] := by
  rw [written, List.filter_map]
  split
  · rw [List.filter_eq_self.mpr]
    exact fun _ _ ↦ ‹_›
  · rw [List.filter_eq_nil_iff.mpr fun _ _ ↦ ‹_›, List.map_nil]

theorem shownOf_chars (pen : Pen) (s : List Char) (ts : List Token) :
    shownOf pen (s.map .char ++ ts) = s.map (·, pen) ++ shownOf pen ts := by
  induction s with
  | nil => rfl
  | cons c s ih => exact congrArg ((c, pen) :: ·) ih

theorem foldl_pen_chars (pen : Pen) (s : List Char) :
    (s.map Token.char).foldl Token.pen pen = pen := by
  induction s with
  | nil => rfl
  | cons c s ih => exact ih

/-- The characters that are shown are those that are left without the sequences. -/
theorem map_fst_shownOf (pen : Pen) (ts : List Token) :
    (shownOf pen ts).map (·.1) = ts.filterMap Token.char? := by
  induction ts generalizing pen with
  | nil => rfl
  | cons token ts ih =>
    cases token with
    | char c => exact congrArg (c :: ·) (ih pen)
    | sequence digits => exact ih _

theorem strip_eq (pen : Pen) (s : String) :
    strip s = String.ofList ((shown pen s).map (·.1)) := by
  rw [strip, shown, map_fst_shownOf]

/-- Only whole sequences are deleted. -/
example : strip "a\x1b[31mb\x1b[3c" = "ab\x1b[3c" := by decide +kernel

end Terminal

/-! ## Pieces -/

namespace Terminal.Pen

/-- The number of a colour. -/
def colourNumber : Colour → ℕ
  | .red => 1
  | .green => 2
  | .yellow => 3

/-- The pen that a style asks for. -/
def of (colour : Colour) (bold : Bool) : Pen := ⟨some (colourNumber colour), bold⟩

end Terminal.Pen

namespace Piece

open Terminal

/-- The texts of a piece hold no escape character. -/
def IsClean : Piece → Prop
  | .text s => escapeChar ∉ s.toList
  | .style .. => True
  | .reset => True

@[simp] theorem isClean_style (colour : Colour) (bold : Bool) : (style colour bold).IsClean :=
  trivial

@[simp] theorem isClean_reset : reset.IsClean := trivial

theorem isClean_line_iff {s : String} : (line s).IsClean ↔ escapeChar ∉ s.toList := by
  have hbreak : escapeChar ∉ "\n".toList := by decide
  rw [line, IsClean, escapeChar_notMem_append, and_iff_left hbreak]

/-- The tokens that the coloured form of a piece is made of. -/
def tokens : Piece → List Token
  | .text s => s.toList.map .char
  | .style colour bold =>
    [.sequence ['0']] ++ (if bold then [.sequence ['1']] else []) ++
      [.sequence ['3', colourDigit colour]]
  | .reset => [.sequence ['0']]

/-- The pen after a piece. A style says all of it, whatever the pen was. -/
def penAfter (pen : Pen) : Piece → Pen
  | .text _ => pen
  | .style colour bold => .of colour bold
  | .reset => .plain

/-- What is to be seen of some pieces. -/
def painted (pen : Pen) : List Piece → List (Char × Pen)
  | [] => []
  | .text s :: pieces => written pen s ++ painted pen pieces
  | .style colour bold :: pieces => painted (.of colour bold) pieces
  | .reset :: pieces => painted .plain pieces

theorem tokens_coloured {p : Piece} (h : p.IsClean) (cs : List Char) :
    Terminal.tokens (p.coloured.toList ++ cs) = p.tokens ++ Terminal.tokens cs := by
  have hreset (cs : List Char) : Terminal.tokens ((escape ['0']).toList ++ cs)
      = .sequence ['0'] :: Terminal.tokens cs :=
    tokens_escape (List.cons_ne_nil _ _) (List.forall_mem_singleton.mpr rfl) cs
  cases p with
  | text s => exact tokens_append h cs
  | reset => exact hreset cs
  | style colour bold =>
    have hdigit : (colourDigit colour).isDigit := by cases colour <;> rfl
    have hcolour : Terminal.tokens ((escape ['3', colourDigit colour]).toList ++ cs)
        = .sequence ['3', colourDigit colour] :: Terminal.tokens cs :=
      tokens_escape (List.cons_ne_nil _ _)
        (List.forall_mem_cons.mpr ⟨rfl, List.forall_mem_singleton.mpr hdigit⟩) cs
    have hbold (cs : List Char) : Terminal.tokens ((escape ['1']).toList ++ cs)
        = .sequence ['1'] :: Terminal.tokens cs :=
      tokens_escape (List.cons_ne_nil _ _) (List.forall_mem_singleton.mpr rfl) cs
    rw [coloured, String.toList_append, String.toList_append, List.append_assoc, List.append_assoc,
      hreset]
    cases bold with
    | false => exact congrArg (Token.sequence ['0'] :: ·) hcolour
    | true =>
      rw [if_pos rfl, hbold, hcolour]
      rfl

/-- **Pieces are read back from their coloured form.** -/
theorem tokens_render {pieces : List Piece} (h : ∀ p ∈ pieces, p.IsClean) :
    Terminal.tokens (render true pieces).toList = pieces.flatMap tokens := by
  induction pieces with
  | nil => rfl
  | cons p pieces ih =>
    obtain ⟨hp, hpieces⟩ := List.forall_mem_cons.mp h
    have hcons : (render true (p :: pieces)).toList
        = p.coloured.toList ++ (render true pieces).toList := by
      rw [render, List.map_cons, String.join_cons, ← render, String.toList_append]
      rfl
    rw [hcons, tokens_coloured hp, ih hpieces, List.flatMap_cons]

theorem penAfter_tokens (pen : Pen) (p : Piece) :
    p.tokens.foldl Token.pen pen = p.penAfter pen := by
  cases p with
  | text s => exact foldl_pen_chars pen s.toList
  | reset => rfl
  | style colour bold => cases colour <;> cases bold <;> rfl

theorem shownOf_flatMap (pen : Pen) (pieces : List Piece) :
    shownOf pen (pieces.flatMap tokens) = painted pen pieces := by
  induction pieces generalizing pen with
  | nil => rfl
  | cons p pieces ih =>
    rw [List.flatMap_cons]
    cases p with
    | text s =>
      rw [tokens, shownOf_chars, ih]
      rfl
    | reset => exact ih .plain
    | style colour bold =>
      cases colour <;> cases bold <;> exact ih _

/-- A terminal shows what the pieces say. -/
theorem shown_render {pieces : List Piece} (h : ∀ p ∈ pieces, p.IsClean) (pen : Pen) :
    shown pen (render true pieces) = painted pen pieces := by
  rw [shown, tokens_render h, shownOf_flatMap]

theorem penAfter_render {pieces : List Piece} (h : ∀ p ∈ pieces, p.IsClean) (pen : Pen) :
    Terminal.penAfter pen (render true pieces) = pieces.foldl penAfter pen := by
  rw [Terminal.penAfter, tokens_render h]
  clear h
  induction pieces generalizing pen with
  | nil => rfl
  | cons p pieces ih =>
    rw [List.flatMap_cons, List.foldl_append, penAfter_tokens, ih, List.foldl_cons]

theorem render_text_cons (colours : Bool) (s : String) (pieces : List Piece) :
    render colours (.text s :: pieces) = s ++ render colours pieces := by
  rw [render, List.map_cons, String.join_cons, ← render]
  cases colours <;> rfl

/-- A style begins with a reset, so nothing is taken over from the pen before it. -/
theorem penAfter_coloured_style (colour : Colour) (bold : Bool) (pen : Pen) :
    Terminal.penAfter pen (coloured (.style colour bold)) = .of colour bold := by
  have hsingle : render true [.style colour bold] = coloured (.style colour bold) := by
    rw [render, List.map_singleton, String.join_cons, String.join_nil, String.append_empty]
    rfl
  rw [← hsingle, penAfter_render (List.forall_mem_singleton.mpr (isClean_style colour bold))]
  rfl

theorem map_fst_painted (pen : Pen) (pieces : List Piece) :
    (painted pen pieces).map (·.1) = (render false pieces).toList := by
  induction pieces generalizing pen with
  | nil => rfl
  | cons p pieces ih =>
    cases p with
    | text s =>
      have hwritten : (written pen s).map (·.1) = s.toList := by
        rw [written, List.map_map]
        exact List.map_id _
      rw [painted, List.map_append, hwritten, ih, render_text_cons, String.toList_append]
    | reset => rw [painted, ih, render_reset_cons]
    | style colour bold => rw [painted, ih, render_style_cons]

theorem strip_render {pieces : List Piece} (h : ∀ p ∈ pieces, p.IsClean) :
    strip (render true pieces) = render false pieces := by
  rw [strip_eq .plain, shown_render h, map_fst_painted, String.ofList_toList]

/-- No escape character is written without colours. -/
theorem escapeChar_notMem_render {pieces : List Piece} (h : ∀ p ∈ pieces, p.IsClean) :
    escapeChar ∉ (render false pieces).toList := by
  induction pieces with
  | nil => exact List.not_mem_nil
  | cons p pieces ih =>
    obtain ⟨hp, hpieces⟩ := List.forall_mem_cons.mp h
    cases p with
    | text s =>
      rw [render_text_cons, escapeChar_notMem_append]
      exact ⟨hp, ih hpieces⟩
    | reset =>
      rw [render_reset_cons]
      exact ih hpieces
    | style colour bold =>
      rw [render_style_cons]
      exact ih hpieces

theorem painted_append (pen : Pen) (pieces pieces' : List Piece) :
    painted pen (pieces ++ pieces')
      = painted pen pieces ++ painted (pieces.foldl penAfter pen) pieces' := by
  induction pieces generalizing pen with
  | nil => rfl
  | cons p pieces ih =>
    cases p with
    | text s =>
      rw [List.cons_append, painted, ih, painted, List.append_assoc]
      rfl
    | reset => exact ih _
    | style colour bold => exact ih _

/-! ### Pieces without a style -/

section Plain

variable {pieces : List Piece}

/-- Texts alone look the same with and without colours. -/
theorem render_of_texts (h : ∀ p ∈ pieces, ∃ s, p = .text s) :
    render true pieces = render false pieces := by
  induction pieces with
  | nil => rfl
  | cons p pieces ih =>
    obtain ⟨⟨s, rfl⟩, hpieces⟩ := List.forall_mem_cons.mp h
    rw [render_text_cons, render_text_cons, ih hpieces]

theorem painted_of_texts (h : ∀ p ∈ pieces, ∃ s, p = .text s) (pen : Pen) :
    painted pen pieces = written pen (render false pieces) := by
  induction pieces with
  | nil => rfl
  | cons p pieces ih =>
    obtain ⟨⟨s, rfl⟩, hpieces⟩ := List.forall_mem_cons.mp h
    rw [painted, ih hpieces, render_text_cons, written_append]

end Plain

end Piece

end Conformance
