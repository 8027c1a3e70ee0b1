import Mathlib.Data.List.Forall2
import Conformance.Yaml.Document
import Conformance.Proofs.Yaml.Tokens
/-!
# Documents of keys and values

The tokens of a mapping that holds scalars only are read as the mapping with these scalars, and
there is nothing in it that an alias could refer to. Together with the cutting into tokens this
gives the document of a text with one entry on each line.
-/

namespace Conformance.Yaml

/-! ## Nodes -/

/-- The nodes of an entry, wherever they stand. -/
def Entry.IsNodes (e : Entry) (n : Node × Node) : Prop :=
  ∃ m m', n = (.scalar m none none .plain (String.ofList e.key),
    .scalar m' none none e.style (String.ofList e.value))

/-- What an entry is, seen from outside, wherever it stands. -/
def Entry.IsValues (e : Entry) (v : Value × Value) : Prop :=
  v.1.shape = .scalar none .plain (String.ofList e.key) ∧
    v.2.shape = .scalar none e.style (String.ofList e.value)

theorem exists_tokens_of_map_kind {ts : List Token} {k : Token.Kind} {ks : List Token.Kind}
    (h : ts.map (·.kind) = k :: ks) : ∃ m m' r, ts = ⟨k, m, m'⟩ :: r ∧ r.map (·.kind) = ks := by
  obtain ⟨⟨kind, m, m'⟩, r, rfl, rfl, hr⟩ := List.map_eq_cons_iff.mp h
  exact ⟨m, m', r, rfl, hr⟩

namespace Node

variable (handles : List (String × String))

/-- The entries of a mapping are read one after the other. -/
theorem readEntries_of_kinds (es : List Entry) {ks : List Token.Kind} {ts : List Token}
    (h : ts.map (·.kind) = es.flatMap Entry.kinds ++ .blockEnd :: ks) {fuel : Nat}
    (hfuel : es.length + 1 < fuel) :
    ∃ ns r, readEntries handles fuel ts = some (ns, r) ∧ List.Forall₂ Entry.IsNodes es ns ∧
      r.map (·.kind) = ks := by
  induction es generalizing ts fuel with
  | nil =>
    obtain ⟨m, m', r, rfl, hr⟩ := exists_tokens_of_map_kind h
    obtain ⟨fuel, rfl⟩ := Nat.exists_eq_add_of_lt hfuel
    exact ⟨[], r, rfl, .nil, hr⟩
  | cons e es ih =>
    -- The marks of the four tokens of the entry are of no account.
    obtain ⟨m₁, m₁', r₁, rfl, h₁⟩ := exists_tokens_of_map_kind h
    obtain ⟨m₂, m₂', r₂, rfl, h₂⟩ := exists_tokens_of_map_kind h₁
    obtain ⟨m₃, m₃', r₃, rfl, h₃⟩ := exists_tokens_of_map_kind h₂
    obtain ⟨m₄, m₄', r₄, rfl, h₄⟩ := exists_tokens_of_map_kind h₃
    rw [List.length_cons] at hfuel
    obtain ⟨fuel, rfl, hrest⟩ : ∃ k, fuel = k + 2 ∧ es.length + 1 < k + 1 :=
      ⟨fuel - 2, by omega, by omega⟩
    obtain ⟨ns, r, hns, hnodes, hr⟩ := ih h₄ hrest
    refine ⟨_ :: ns, r, ?_, .cons ⟨m₂, m₄, rfl⟩ hnodes, hr⟩
    change (readEntries handles (fuel + 1) _ >>= _) = _
    rw [hns]
    rfl

theorem root?_of_kinds (es : List Entry) {ks : List Token.Kind} {ts : List Token}
    (h : ts.map (·.kind) = .blockMappingStart :: es.flatMap Entry.kinds ++ .blockEnd :: ks) :
    ∃ m ns r, root? handles ts = some (.mapping m none ns, r) ∧ List.Forall₂ Entry.IsNodes es ns ∧
      r.map (·.kind) = ks := by
  obtain ⟨m, m', r, rfl, hr⟩ := exists_tokens_of_map_kind h
  have hlen : r.length = (es.flatMap Entry.kinds ++ .blockEnd :: ks).length :=
    (List.length_map _).symm.trans (congrArg List.length hr)
  have hfuel : es.length + 1 < 4 * (r.length + 1) + 3 := by
    have hentries : es.length ≤ (es.flatMap Entry.kinds).length := by
      simp only [List.length_flatMap, Entry.kinds, List.length_cons, List.length_nil,
        List.map_const', List.sum_replicate_nat]
      omega
    rw [hlen, List.length_append]
    omega
  obtain ⟨ns, r', hns, hnodes, hr'⟩ := readEntries_of_kinds handles es hr hfuel
  refine ⟨m, ns, r', ?_, hnodes, hr'⟩
  change (readEntries handles (4 * (r.length + 1) + 3) r >>= _) = _
  rw [hns]
  rfl

end Node

/-! ## Anchors and aliases -/

/-- Scalars without anchors leave the anchors as they are, and refer to themselves. -/
theorem references_of_isNodes (a : Anchors) {es : List Entry} {ns : List (Node × Node)}
    (h : List.Forall₂ Entry.IsNodes es ns) :
    references a ns = some (ns.map fun n ↦ (.inl n.1, .inl n.2), a) := by
  induction h with
  | nil => rfl
  | cons he _ ih =>
    obtain ⟨m, m', rfl⟩ := he
    change (references a _ >>= _) = _
    rw [ih]
    rfl

theorem exists_values_of_isNodes (a : Anchors) {es : List Entry} {ns : List (Node × Node)}
    (h : List.Forall₂ Entry.IsNodes es ns) :
    ∃ vs, ((ns.map fun n ↦ (.inl n.1, .inl n.2)) : List (Reference × Reference)).mapM
        (fun (k, v) ↦ do return (← k.value? a, ← v.value? a)) = some vs ∧
      List.Forall₂ Entry.IsValues es vs := by
  induction h with
  | nil => exact ⟨[], rfl, .nil⟩
  | @cons e n es ns he _ ih =>
    obtain ⟨m, m', rfl⟩ := he
    obtain ⟨vs, hvs, hvalues⟩ := ih
    refine ⟨(⟨m, .scalar none .plain (String.ofList e.key)⟩,
      ⟨m', .scalar none e.style (String.ofList e.value)⟩) :: vs, ?_, .cons ⟨rfl, rfl⟩ hvalues⟩
    rw [List.map_cons, List.mapM_cons, hvs]
    rfl

theorem Document.ofNode?_of_isNodes (m : Mark) {es : List Entry} {ns : List (Node × Node)}
    (h : List.Forall₂ Entry.IsNodes es ns) :
    ∃ vs, ofNode? (.mapping m none ns) = some (.mapping m vs) ∧
      List.Forall₂ Entry.IsValues es vs := by
  obtain ⟨vs, hvs, hvalues⟩ := exists_values_of_isNodes .none h
  refine ⟨vs, ?_, hvalues⟩
  change (references .none ns >>= _) = _
  rw [references_of_isNodes .none h]
  change (List.mapM (m := Option) _ _ >>= _) = _
  rw [hvs]
  rfl

/-- **Documents of keys and values.** A text with one entry on each line is a document that holds
these entries. -/
theorem Document.ofText?_lines {es : List Entry} {cs : List Char} (h : Lines WritesEntry es cs)
    (hne : es ≠ []) :
    ∃ m vs, ofText? (String.ofList cs) = some (.mapping m vs) ∧
      List.Forall₂ Entry.IsValues es vs := by
  obtain ⟨ts, htokens, hkinds⟩ := tokens?_lines h hne
  obtain ⟨m, ns, r, hroot, hnodes, hr⟩ := Node.root?_of_kinds ([] ++ Tag.standardHandles) es hkinds
  obtain ⟨m₁, m₁', r₁, rfl, -⟩ := exists_tokens_of_map_kind hkinds
  obtain ⟨m₂, m₂', r₂, rfl, -⟩ := exists_tokens_of_map_kind hr
  obtain ⟨vs, hdocument, hvalues⟩ := ofNode?_of_isNodes m hnodes
  refine ⟨m, vs, ?_, hvalues⟩
  rw [ofText?, String.toList_ofList, htokens]
  change (Node.root? _ _ >>= _) = _
  rw [hroot]
  exact hdocument

end Conformance.Yaml
