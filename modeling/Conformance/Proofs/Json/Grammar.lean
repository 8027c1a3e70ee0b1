import Conformance.Json.Skip
import Conformance.Proofs.Json.Scan
/-!
# The grammar of JSON

What a JSON text spells is a tree. White space between tokens, the choice of escapes inside strings,
and the way an exponent is marked are all forgotten in it; the digits of a number and the order of
members are not.

The relations of the grammar read `R cs a rest`: the text `cs` begins with a spelling of `a` and
goes on with `rest`. They say nothing of how far a reader would look ahead, so they relate `12` to
the number `1` with `2` left over; only a text that is spelled as a whole is JSON.

## Strings

An escape may spell half of a surrogate pair, and no list of characters stands for that. A string is
therefore a row of UTF-16 code units, and it is a text only if its surrogates are well paired.
-/

namespace Conformance.Json

/-- A JSON value. -/
inductive Tree where
  | null
  | boolean (b : Bool)
  | number (isNegative : Bool) (n : Numeral)
  /-- A string by its code units. -/
  | text (units : List Nat)
  | list (items : List Tree)
  | object (members : List (List Nat × Tree))

/-! ## White space -/

/-- Nothing but white space stands before `rest`. -/
def Space (cs rest : List Char) : Prop := ∃ ws, (∀ c ∈ ws, isSpace c) ∧ cs = ws ++ rest

/-! ## Strings -/

/-- The UTF-16 code units of a character. -/
def unitsOf (c : Char) : List Nat :=
  if c.toNat < 0x10000 then [c.toNat]
  else [0xD800 + (c.toNat - 0x10000) / 0x400, 0xDC00 + (c.toNat - 0x10000) % 0x400]

/-- The UTF-16 code units of a text. -/
def units (s : List Char) : List Nat := s.flatMap unitsOf

/-- Four hexadecimal digits. -/
inductive Hex4 : List Char → Nat → List Char → Prop where
  | mk {a b c d : Char} {i j k l : Nat} (ha : hexDigit? a = some i) (hb : hexDigit? b = some j)
    (hc : hexDigit? c = some k) (hd : hexDigit? d = some l) (rest : List Char) :
    Hex4 (a :: b :: c :: d :: rest) (((i * 16 + j) * 16 + k) * 16 + l) rest

/-- What stands between the quotes of a string, with the closing quote. -/
inductive Body : List Char → List Nat → List Char → Prop where
  | close (rest : List Char) : Body ('"' :: rest) [] rest
  /-- A character that stands for itself. -/
  | plain {c : Char} {cs rest : List Char} {us : List Nat} (hquote : c ≠ '"')
    (hbackslash : c ≠ '\\') (hcontrol : 0x20 ≤ c.toNat) (h : Body cs us rest) :
    Body (c :: cs) (unitsOf c ++ us) rest
  /-- An escape of one letter. -/
  | short {c x : Char} {cs rest : List Char} {us : List Nat} (hx : shortEscape? c = some x)
    (h : Body cs us rest) : Body ('\\' :: c :: cs) (unitsOf x ++ us) rest
  /-- An escape by its code unit. -/
  | numeric {n : Nat} {cs cs' rest : List Char} {us : List Nat} (hn : Hex4 cs n cs')
    (h : Body cs' us rest) : Body ('\\' :: 'u' :: cs) (n :: us) rest

/-! ## Numbers -/

/-- A row of at least one decimal digit. -/
def AreDigits (ds : List Char) : Prop := ds ≠ [] ∧ ∀ c ∈ ds, isDigit c

/-- The part of a numeral behind the point, or none. -/
inductive FractionAt : List Char → Option (List Char) → List Char → Prop where
  | absent (rest : List Char) : FractionAt rest none rest
  | present {ds : List Char} (hds : AreDigits ds) (rest : List Char) :
    FractionAt ('.' :: (ds ++ rest)) (some ds) rest

/-- The exponent of a numeral, or none. -/
inductive ExponentAt : List Char → Option (Bool × List Char) → List Char → Prop where
  | absent (rest : List Char) : ExponentAt rest none rest
  | unsigned {e : Char} {ds : List Char} (he : e = 'e' ∨ e = 'E') (hds : AreDigits ds)
    (rest : List Char) : ExponentAt (e :: (ds ++ rest)) (some (false, ds)) rest
  | positive {e : Char} {ds : List Char} (he : e = 'e' ∨ e = 'E') (hds : AreDigits ds)
    (rest : List Char) : ExponentAt (e :: '+' :: (ds ++ rest)) (some (false, ds)) rest
  | negative {e : Char} {ds : List Char} (he : e = 'e' ∨ e = 'E') (hds : AreDigits ds)
    (rest : List Char) : ExponentAt (e :: '-' :: (ds ++ rest)) (some (true, ds)) rest

/-- A numeral without its sign. A leading zero stands alone. -/
inductive NumeralAt : List Char → Numeral → List Char → Prop where
  | mk {whole cs cs' rest : List Char} {fraction : Option (List Char)}
    {exponent : Option (Bool × List Char)} (hwhole : AreDigits whole)
    (hzero : whole.head? = some '0' → whole.length = 1) (hfraction : FractionAt cs fraction cs')
    (hexponent : ExponentAt cs' exponent rest) :
    NumeralAt (whole ++ cs) ⟨whole, fraction, exponent⟩ rest

/-! ## Values -/

/-- A key with the colon behind it. -/
inductive KeyAt : List Char → List Nat → List Char → Prop where
  | mk {cs cs' cs'' rest : List Char} {key : List Nat} (hopen : Space cs ('"' :: cs'))
    (hkey : Body cs' key cs'') (hcolon : Space cs'' (':' :: rest)) : KeyAt cs key rest

mutual

/-- A value, from its first character on. -/
inductive ValueAt : List Char → Tree → List Char → Prop where
  | null (rest : List Char) : ValueAt ('n' :: 'u' :: 'l' :: 'l' :: rest) .null rest
  | isTrue (rest : List Char) : ValueAt ('t' :: 'r' :: 'u' :: 'e' :: rest) (.boolean true) rest
  | isFalse (rest : List Char) :
    ValueAt ('f' :: 'a' :: 'l' :: 's' :: 'e' :: rest) (.boolean false) rest
  | natural {cs rest : List Char} {n : Numeral} (h : NumeralAt cs n rest) :
    ValueAt cs (.number false n) rest
  | negative {cs rest : List Char} {n : Numeral} (h : NumeralAt cs n rest) :
    ValueAt ('-' :: cs) (.number true n) rest
  | text {cs rest : List Char} {us : List Nat} (h : Body cs us rest) :
    ValueAt ('"' :: cs) (.text us) rest
  | emptyList {cs rest : List Char} (h : Space cs (']' :: rest)) :
    ValueAt ('[' :: cs) (.list []) rest
  | list {cs cs' cs'' rest : List Char} {t : Tree} {ts : List Tree} (hspace : Space cs cs')
    (h : ValueAt cs' t cs'') (hts : ItemsAt cs'' ts rest) :
    ValueAt ('[' :: cs) (.list (t :: ts)) rest
  | emptyObject {cs rest : List Char} (h : Space cs ('}' :: rest)) :
    ValueAt ('\x7b' :: cs) (.object []) rest
  | object {cs cs₁ cs₂ cs₃ rest : List Char} {key : List Nat} {t : Tree}
    {ms : List (List Nat × Tree)} (hkey : KeyAt cs key cs₁) (hspace : Space cs₁ cs₂)
    (h : ValueAt cs₂ t cs₃) (hms : MembersAt cs₃ ms rest) :
    ValueAt ('\x7b' :: cs) (.object ((key, t) :: ms)) rest

/-- The further items of a list, each behind a comma, and the closing bracket. -/
inductive ItemsAt : List Char → List Tree → List Char → Prop where
  | close {cs rest : List Char} (h : Space cs (']' :: rest)) : ItemsAt cs [] rest
  | item {cs cs₁ cs₂ cs₃ rest : List Char} {t : Tree} {ts : List Tree}
    (hcomma : Space cs (',' :: cs₁)) (hspace : Space cs₁ cs₂) (h : ValueAt cs₂ t cs₃)
    (hts : ItemsAt cs₃ ts rest) : ItemsAt cs (t :: ts) rest

/-- The further members of an object, each behind a comma, and the closing brace. -/
inductive MembersAt : List Char → List (List Nat × Tree) → List Char → Prop where
  | close {cs rest : List Char} (h : Space cs ('}' :: rest)) : MembersAt cs [] rest
  | member {cs cs₁ cs₂ cs₃ cs₄ rest : List Char} {key : List Nat} {t : Tree}
    {ms : List (List Nat × Tree)} (hcomma : Space cs (',' :: cs₁)) (hkey : KeyAt cs₁ key cs₂)
    (hspace : Space cs₂ cs₃) (h : ValueAt cs₃ t cs₄) (hms : MembersAt cs₄ ms rest) :
    MembersAt cs ((key, t) :: ms) rest

end

/-- The text is JSON and spells the tree: it is one value with white space around it. -/
def Spells (text : List Char) (t : Tree) : Prop :=
  ∃ cs rest, Space text cs ∧ ValueAt cs t rest ∧ Space rest []

/-! ## White space is skipped -/

theorem space_skipSpace (cs : List Char) : Space cs (skipSpace cs) := by
  refine ⟨cs.takeWhile isSpace, ?_, (List.takeWhile_append_dropWhile ..).symm⟩
  intro c hc
  exact (List.all_eq_true.mp List.all_takeWhile) c hc

theorem isSpace_of_skipSpace {cs r : List Char} {c : Char} (h : skipSpace cs = c :: r) :
    isSpace c = false := by
  have hhead := List.head?_dropWhile_not isSpace cs
  rw [← skipSpace, h] at hhead
  exact hhead

/-- White space before another character is just what is skipped. -/
theorem skipSpace_eq_cons_iff {cs r : List Char} {c : Char} :
    skipSpace cs = c :: r ↔ isSpace c = false ∧ Space cs (c :: r) := by
  constructor
  · intro h
    exact ⟨isSpace_of_skipSpace h, h ▸ space_skipSpace cs⟩
  · rintro ⟨hc, ws, hws, rfl⟩
    exact skipSpace_append_cons hws hc r

theorem skipSpace_eq_nil_iff {cs : List Char} : skipSpace cs = [] ↔ Space cs [] := by
  constructor
  · intro h
    exact h ▸ space_skipSpace cs
  · rintro ⟨ws, hws, rfl⟩
    rw [skipSpace_append hws]
    rfl

/-! ## Where values begin and numbers end -/

theorem NumeralAt.begins {cs rest : List Char} {n : Numeral} (h : NumeralAt cs n rest) :
    ∃ c r, cs = c :: r ∧ isDigit c := by
  obtain ⟨⟨hne, hdigits⟩, -, -, -⟩ := h
  obtain ⟨d, ds, rfl⟩ := List.exists_cons_of_ne_nil hne
  exact ⟨d, _, rfl, hdigits d List.mem_cons_self⟩

/-- A value begins with no white space, and never with a closing bracket. -/
theorem ValueAt.begins {cs rest : List Char} {t : Tree} (h : ValueAt cs t rest) :
    ∃ c r, cs = c :: r ∧ isSpace c = false ∧ c ≠ ']' := by
  cases h with
  | natural h =>
    obtain ⟨c, r, rfl, hc⟩ := h.begins
    exact ⟨c, r, rfl, isSpace_of_isDigit hc, by rintro rfl; exact absurd hc (by decide)⟩
  | _ => exact ⟨_, _, rfl, by decide, by decide⟩

/-- Behind white space comes either a character that no numeral goes on with, or the end. -/
theorem Space.endsNumeral {cs rest : List Char} (hspace : Space cs rest)
    (hrest : EndsNumeral rest) : EndsNumeral cs := by
  obtain ⟨ws, hws, rfl⟩ := hspace
  cases ws with
  | nil => exact hrest
  | cons w ws =>
    rintro c ⟨⟩
    have hw := hws w List.mem_cons_self
    simp only [isSpace, Bool.or_eq_true, beq_iff_eq] at hw
    obtain ((rfl | rfl) | rfl) | rfl := hw <;> decide

theorem endsNumeral_cons {c : Char} (rest : List Char)
    (hc : isDigit c = false ∧ c ≠ '.' ∧ c ≠ 'e' ∧ c ≠ 'E') : EndsNumeral (c :: rest) := by
  rintro d ⟨⟩
  exact hc

theorem ItemsAt.endsNumeral {cs rest : List Char} {ts : List Tree} (h : ItemsAt cs ts rest) :
    EndsNumeral cs := by
  cases h with
  | close h => exact h.endsNumeral (endsNumeral_cons _ (by decide))
  | item hcomma => exact hcomma.endsNumeral (endsNumeral_cons _ (by decide))

theorem MembersAt.endsNumeral {cs rest : List Char} {ms : List (List Nat × Tree)}
    (h : MembersAt cs ms rest) : EndsNumeral cs := by
  cases h with
  | close h => exact h.endsNumeral (endsNumeral_cons _ (by decide))
  | member hcomma => exact hcomma.endsNumeral (endsNumeral_cons _ (by decide))

end Conformance.Json
