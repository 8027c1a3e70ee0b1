import Conformance.Json.Scan
/-!
# Skipping a JSON value

The value of a key that nobody asked for is skipped: it must be well-formed JSON, at any depth of
nesting. The brackets that are still open are kept in a list, so depth costs nothing but memory.
-/

namespace Conformance.Json

/-- A container that is still open. -/
inductive Bracket where
  | list
  | object
  deriving DecidableEq, Repr

/-- The rest after a scalar, from its first character on. -/
def skipScalar (cs : List Char) : Except Failure (Rest cs) :=
  match cs with
  | [] => .error .truncated
  | c :: r =>
    if c = '"' then (skipString r).map (·.cons c)
    else if c = '-' then (skipNumeral r).map (·.cons c)
    else if isDigit c then skipNumeral (c :: r)
    else if c = 'n' then (word ['u', 'l', 'l'] r).map fun s ↦ ⟨s.1, Nat.lt_succ_of_le s.2⟩
    else if c = 't' then (word ['r', 'u', 'e'] r).map fun s ↦ ⟨s.1, Nat.lt_succ_of_le s.2⟩
    else if c = 'f' then (word ['a', 'l', 's', 'e'] r).map fun s ↦ ⟨s.1, Nat.lt_succ_of_le s.2⟩
    else .error .malformed

/-- The rest after a key and its colon, white space before either included. -/
def skipKey (cs : List Char) : Except Failure (Rest cs) :=
  match h : skipSpace cs with
  | [] => .error .truncated
  | c :: r =>
    if c = '"' then do
      let rest ← skipString r
      match h' : skipSpace rest.1 with
      | [] => .error .truncated
      | d :: r' =>
        if d = ':' then
          .ok ⟨r', by
            have h₁ := length_skipSpace_le cs
            have h₂ := length_skipSpace_le rest.1
            have h₃ := rest.2
            rw [h] at h₁
            rw [h'] at h₂
            simp only [List.length_cons] at h₁ h₂
            omega⟩
        else .error .malformed
    else .error .malformed

/-- What follows an opening bracket, or a value inside a container. -/
inductive Next (cs : List Char) where
  /-- The container goes on with another value. -/
  | value (rest : Rest cs)
  /-- The container is closed. -/
  | closed (rest : Rest cs)

/-- Reads on after a value inside a container. -/
def afterValue (bracket : Bracket) (cs : List Char) : Except Failure (Next cs) :=
  match h : skipSpace cs with
  | [] => .error .truncated
  | c :: r =>
    have hr := length_lt_of_skipSpace h
    match bracket with
    | .list =>
      if c = ',' then .ok (.value ⟨r, hr⟩)
      else if c = ']' then .ok (.closed ⟨r, hr⟩)
      else .error .malformed
    | .object =>
      if c = ',' then do
        let rest ← skipKey r
        .ok (.value (rest.within hr))
      else if c = '}' then .ok (.closed ⟨r, hr⟩)
      else .error .malformed

/-- Reads on after an opening bracket. -/
def afterOpening (bracket : Bracket) (cs : List Char) :
    Except Failure (Next cs ⊕ Unit) :=
  match h : skipSpace cs with
  | [] => .error .truncated
  | c :: r =>
    have hr := length_lt_of_skipSpace h
    match bracket with
    | .list => if c = ']' then .ok (.inl (.closed ⟨r, hr⟩)) else .ok (.inr ())
    | .object =>
      if c = '}' then .ok (.inl (.closed ⟨r, hr⟩))
      else do
        let rest ← skipKey cs
        .ok (.inl (.value rest))

mutual

/-- The rest after a value inside the given open containers, once all of them are closed. -/
def skipNested (outer : List Bracket) (cs : List Char) : Except Failure (Rest cs) :=
  match h : skipSpace cs with
  | [] => .error .truncated
  | c :: r =>
    have hr := length_lt_of_skipSpace h
    match (if c = '[' then some Bracket.list else if c = '{' then some Bracket.object else none) with
    | some bracket => do
      match ← afterOpening bracket r with
      | .inr () =>
        let rest ← skipNested (bracket :: outer) r
        return rest.within hr
      | .inl (.value rest) =>
        let rest' ← skipNested (bracket :: outer) rest.1
        return ⟨rest'.1, by have := rest.2; have := rest'.2; omega⟩
      | .inl (.closed rest) =>
        let rest' ← skipRest outer rest.1
        return ⟨rest'.1, by have := rest.2; have := rest'.2; omega⟩
    | none => do
      let rest ← skipScalar (c :: r)
      let rest' ← skipRest outer rest.1
      return ⟨rest'.1, by
        have := rest.2; have := rest'.2; simp only [List.length_cons] at *; omega⟩
termination_by (cs.length, 0)
decreasing_by
  · exact Prod.Lex.left _ _ hr
  · exact Prod.Lex.left _ _ (Nat.lt_trans rest.2 hr)
  · exact Prod.Lex.left _ _ (Nat.lt_trans rest.2 hr)
  · exact Prod.Lex.left _ _ (Nat.lt_of_lt_of_le rest.2 hr)

/-- The rest after the given open containers are closed, from behind a value. -/
def skipRest (outer : List Bracket) (cs : List Char) :
    Except Failure { r : List Char // r.length ≤ cs.length } :=
  match outer with
  | [] => .ok ⟨cs, Nat.le_refl _⟩
  | bracket :: further => do
    match ← afterValue bracket cs with
    | .value rest =>
      let rest' ← skipNested (bracket :: further) rest.1
      return ⟨rest'.1, by have := rest.2; have := rest'.2; omega⟩
    | .closed rest =>
      let rest' ← skipRest further rest.1
      return ⟨rest'.1, by have := rest.2; have := rest'.2; omega⟩
termination_by (cs.length, 1)
decreasing_by
  · exact Prod.Lex.left _ _ rest.2
  · exact Prod.Lex.left _ _ rest.2

end

/-- The rest after one value, white space before it included. -/
def skipValue (cs : List Char) : Except Failure (Rest cs) := skipNested [] cs

end Conformance.Json
