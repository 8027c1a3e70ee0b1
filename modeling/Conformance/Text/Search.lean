/-!
# Substring search

Whether one text occurs in another as a contiguous run of characters.
-/

namespace Conformance.Text

/-- Whether `needle` occurs in a list as a contiguous run. -/
def occursIn {α : Type} [BEq α] (needle : List α) : List α → Bool
  | [] => needle.isEmpty
  | c :: cs => needle.isPrefixOf (c :: cs) || occursIn needle cs

/-- The search finds exactly the infixes. -/
theorem occursIn_iff {α : Type} [BEq α] [LawfulBEq α] {needle hay : List α} :
    occursIn needle hay = true ↔ needle <:+: hay := by
  induction hay with
  | nil => simp [occursIn]
  | cons c cs ih => simp [occursIn, ih, List.infix_cons_iff, List.isPrefixOf_iff_prefix]

/-- Whether a text contains another. -/
def contains (hay needle : String) : Bool :=
  occursIn needle.toList hay.toList

theorem contains_iff {hay needle : String} :
    contains hay needle = true ↔ needle.toList <:+: hay.toList :=
  occursIn_iff

end Conformance.Text
