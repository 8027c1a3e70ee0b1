import Mathlib.Data.List.Infix
import Conformance.Path
/-!
# The components of joined and rendered paths

The components of a path are read off its text: a first one that tells where the path starts, and
then one for every part between slashes that is neither empty nor a `.` step. Joining puts a slash
between two texts, so it appends components, and rendering components and reading the text again
gives them back. A path that is cut down to what lies below another and joined to it again therefore
keeps its components, however the two were spelled.
-/

namespace Conformance.Path

/-! ## Parts between slashes -/

theorem segments_ne_nil (cs : List Char) : segments cs ≠ [] := by
  cases cs with
  | nil => exact List.cons_ne_nil _ _
  | cons c cs =>
    rw [segments]
    split
    · exact List.cons_ne_nil _ _
    · split <;> exact List.cons_ne_nil _ _

theorem segments_slash (cs : List Char) : segments ('/' :: cs) = [] :: segments cs := by
  rw [segments, if_pos rfl]

/-- A slash ends one part and begins the next. -/
theorem segments_append_slash (xs ys : List Char) :
    segments (xs ++ '/' :: ys) = segments xs ++ segments ys := by
  induction xs with
  | nil => exact segments_slash ys
  | cons c xs ih =>
    rw [List.cons_append, segments, segments, ih]
    split
    · rfl
    · obtain ⟨s, rest, hs⟩ := List.exists_cons_of_ne_nil (segments_ne_nil xs)
      rw [hs]
      rfl

theorem segments_of_not_mem {s : List Char} (h : '/' ∉ s) : segments s = [s] := by
  induction s with
  | nil => rfl
  | cons c s ih =>
    rw [List.mem_cons, not_or] at h
    rw [segments, if_neg (Ne.symm h.1), ih h.2]

theorem not_mem_of_mem_segments {cs s : List Char} (h : s ∈ segments cs) : '/' ∉ s := by
  induction cs generalizing s with
  | nil =>
    rw [segments, List.mem_singleton] at h
    rw [h]
    exact List.not_mem_nil
  | cons c cs ih =>
    rw [segments] at h
    split at h
    · obtain rfl | h := List.mem_cons.mp h
      · exact List.not_mem_nil
      · exact ih h
    · rename_i hc
      obtain ⟨t, rest, ht⟩ := List.exists_cons_of_ne_nil (segments_ne_nil cs)
      rw [ht] at h ih
      obtain rfl | h := List.mem_cons.mp h
      · rw [List.mem_cons, not_or]
        exact ⟨Ne.symm hc, ih List.mem_cons_self⟩
      · exact ih (List.mem_cons_of_mem t h)

/-- The parts of a text that was put together from parts. -/
theorem segments_intercalate {parts : List (List Char)} (hne : parts ≠ [])
    (h : ∀ s ∈ parts, '/' ∉ s) : segments (List.intercalate ['/'] parts) = parts := by
  induction parts with
  | nil => exact absurd rfl hne
  | cons s parts ih =>
    obtain ⟨hs, hparts⟩ := List.forall_mem_cons.mp h
    cases parts with
    | nil => rw [List.intercalate_singleton, segments_of_not_mem hs]
    | cons t parts =>
      rw [List.intercalate_cons_cons, List.append_assoc, List.singleton_append,
        segments_append_slash, segments_of_not_mem hs, ih (List.cons_ne_nil _ _) hparts]
      rfl

/-! ## Where a path starts -/

/-- The component that says where a path starts, if it starts at the root or at a `.` step. -/
def start (cs : List Char) : List Component :=
  if cs.head? = some '/' then [.root]
  else if (segments cs).head? = some ['.'] then [.current]
  else []

/-- The components of a path behind its start. -/
def steps (cs : List Char) : List Component := (segments cs).filterMap component?

theorem componentsOf_eq (cs : List Char) : componentsOf cs = start cs ++ steps cs := rfl

theorem steps_append_slash (xs ys : List Char) :
    steps (xs ++ '/' :: ys) = steps xs ++ steps ys := by
  rw [steps, segments_append_slash, List.filterMap_append]
  rfl

/-- What follows a slash does not change where a path starts. -/
theorem start_append_slash {xs : List Char} (hne : xs ≠ []) (ys : List Char) :
    start (xs ++ '/' :: ys) = start xs := by
  obtain ⟨c, xs, rfl⟩ := List.exists_cons_of_ne_nil hne
  obtain ⟨s, rest, hs⟩ := List.exists_cons_of_ne_nil (segments_ne_nil (c :: xs))
  rw [start, start, segments_append_slash, hs]
  rfl

theorem componentsOf_append_slash {xs : List Char} (hne : xs ≠ []) (ys : List Char) :
    componentsOf (xs ++ '/' :: ys) = componentsOf xs ++ steps ys := by
  rw [componentsOf_eq, componentsOf_eq, start_append_slash hne, steps_append_slash,
    List.append_assoc]

/-- A relative path that does not begin with a `.` step starts with a step of its own. -/
theorem start_eq_nil {cs : List Char} (habs : cs.head? ≠ some '/')
    (hdot : (segments cs).head? ≠ some ['.']) : start cs = [] := by
  rw [start, if_neg habs, if_neg hdot]

/-! ## Joining -/

section Join

variable {base sub : List Char}

theorem joinChars_absolute (h : sub.head? = some '/') (base : List Char) :
    joinChars base sub = sub := by
  rw [joinChars, if_pos h]

/-- Joining to a path that is not empty appends the steps of what is joined. -/
theorem componentsOf_joinChars (hbase : base ≠ []) (hsub : sub.head? ≠ some '/') :
    componentsOf (joinChars base sub) = componentsOf base ++ steps sub := by
  rw [joinChars, if_neg hsub]
  split
  · rename_i h
    obtain ⟨b, rfl⟩ := List.getLast?_eq_some_iff.mp (h.resolve_left hbase)
    rw [List.append_assoc, List.singleton_append]
    -- The slash is there already, with an empty part behind it.
    cases b with
    | nil => rfl
    | cons c b =>
      have hne : c :: b ≠ [] := List.cons_ne_nil c b
      have hempty : componentsOf (c :: b ++ ['/']) = componentsOf (c :: b) :=
        (componentsOf_append_slash hne []).trans (List.append_nil _)
      rw [componentsOf_append_slash hne, hempty]
  · exact componentsOf_append_slash hbase sub

theorem joinChars_nil (sub : List Char) : joinChars [] sub = sub := by
  rw [joinChars]
  split
  · rfl
  · rw [if_pos (.inl rfl), List.nil_append]

end Join

/-- Only the empty path has no components. -/
theorem eq_nil_of_componentsOf {cs : List Char} (h : componentsOf cs = []) : cs = [] := by
  rw [componentsOf_eq, List.append_eq_nil_iff] at h
  obtain ⟨hstart, hsteps⟩ := h
  cases cs with
  | nil => rfl
  | cons c cs =>
    have hc : c ≠ '/' := by
      rintro rfl
      cases hstart
    obtain ⟨s, rest, hs⟩ := List.exists_cons_of_ne_nil (segments_ne_nil cs)
    have hsegments : segments (c :: cs) = (c :: s) :: rest := by rw [segments, if_neg hc, hs]
    have hfirst : component? (c :: s) = none :=
      List.filterMap_eq_nil_iff.mp hsteps _ (hsegments ▸ List.mem_cons_self)
    -- A first part that is no component is a `.` step, and with this the path starts.
    have hdot : c :: s = ['.'] := by
      rw [component?] at hfirst
      split at hfirst
      · rename_i h
        exact h.resolve_left (List.cons_ne_nil c s)
      · split at hfirst <;> cases hfirst
    rw [start, hsegments, hdot] at hstart
    split at hstart <;> cases hstart

/-! ## Rendering -/

/-- A component that its own text is read as inside a path: a name, or a step to the parent. -/
def IsStep (c : Component) : Prop := component? c.chars = some c ∧ '/' ∉ c.chars

theorem isStep_of_mem_steps {c : Component} {cs : List Char} (h : c ∈ steps cs) : IsStep c := by
  obtain ⟨s, hs, hc⟩ := List.mem_filterMap.mp h
  have hchars : c.chars = s := by
    rw [component?] at hc
    split at hc
    · cases hc
    · split at hc
      · rename_i hparent
        cases hc
        exact hparent.symm
      · cases hc
        rfl
  rw [IsStep, hchars]
  exact ⟨hc, not_mem_of_mem_segments hs⟩

theorem IsStep.chars_ne_nil {c : Component} (h : IsStep c) : c.chars ≠ [] := by
  intro hnil
  have hnone := h.1
  rw [hnil] at hnone
  cases hnone

theorem IsStep.chars_ne_dot {c : Component} (h : IsStep c) : c.chars ≠ ['.'] := by
  intro hdot
  have hnone := h.1
  rw [hdot] at hnone
  cases hnone

/-- The text of components joined by slashes. -/
def renderChars (cs : List Component) : List Char :=
  List.intercalate ['/'] (cs.map Component.chars)

theorem toList_renderComponents (cs : List Component) :
    (renderComponents cs).toList = renderChars cs :=
  String.toList_ofList

theorem renderChars_cons {c : Component} {cs : List Component} (hne : cs ≠ []) :
    renderChars (c :: cs) = c.chars ++ '/' :: renderChars cs := by
  obtain ⟨d, cs, rfl⟩ := List.exists_cons_of_ne_nil hne
  rw [renderChars, List.map_cons, List.map_cons, List.intercalate_cons_cons, List.append_assoc]
  rfl

/-- A component with a text that can stand between slashes. -/
def IsPart (c : Component) : Prop := c.chars ≠ [] ∧ '/' ∉ c.chars

theorem IsStep.isPart {c : Component} (h : IsStep c) : IsPart c := ⟨h.chars_ne_nil, h.2⟩

theorem isPart_current : IsPart .current := ⟨List.cons_ne_nil _ _, by decide⟩

section Steps

variable {cs : List Component}

theorem segments_renderChars (h : ∀ c ∈ cs, IsPart c) (hne : cs ≠ []) :
    segments (renderChars cs) = cs.map Component.chars := by
  refine segments_intercalate (mt List.map_eq_nil_iff.mp hne) ?_
  rw [List.forall_mem_map]
  exact fun c hc ↦ (h c hc).2

theorem nil_not_mem_segments_renderChars (h : ∀ c ∈ cs, IsPart c) (hne : cs ≠ []) :
    [] ∉ segments (renderChars cs) := by
  rw [segments_renderChars h hne, List.mem_map]
  rintro ⟨c, hc, hnil⟩
  exact (h c hc).1 hnil

/-- Without the root among them, components are written without a slash in front. -/
theorem renderChars_relative (h : ∀ c ∈ cs, IsPart c) : (renderChars cs).head? ≠ some '/' := by
  cases cs with
  | nil => exact fun hslash ↦ nomatch hslash
  | cons c cs =>
    intro hslash
    obtain ⟨rest, hrest⟩ := List.head?_eq_some_iff.mp hslash
    refine nil_not_mem_segments_renderChars h (List.cons_ne_nil c cs) ?_
    rw [hrest, segments_slash]
    exact List.mem_cons_self

theorem steps_renderChars (h : ∀ c ∈ cs, IsStep c) : steps (renderChars cs) = cs := by
  by_cases hne : cs = []
  · rw [hne]
    rfl
  · rw [steps, segments_renderChars (fun c hc ↦ (h c hc).isPart) hne, List.filterMap_map,
      List.filterMap_congr fun c hc ↦ ?_]
    · exact List.filterMap_some
    · exact (h c hc).1

theorem start_renderChars (h : ∀ c ∈ cs, IsStep c) : start (renderChars cs) = [] := by
  have hparts : ∀ c ∈ cs, IsPart c := fun c hc ↦ (h c hc).isPart
  refine start_eq_nil (renderChars_relative hparts) ?_
  cases cs with
  | nil => exact fun hdot ↦ nomatch hdot
  | cons c cs =>
    rw [segments_renderChars hparts (List.cons_ne_nil c cs)]
    intro hdot
    exact (h c List.mem_cons_self).chars_ne_dot (Option.some.inj hdot)

theorem componentsOf_renderChars_steps (h : ∀ c ∈ cs, IsStep c) :
    componentsOf (renderChars cs) = cs := by
  rw [componentsOf_eq, start_renderChars h, steps_renderChars h, List.nil_append]

end Steps

theorem start_cases (cs : List Char) :
    start cs = [] ∨ (start cs = [.root] ∧ cs.head? = some '/') ∨ start cs = [.current] := by
  rw [start]
  split
  · exact .inr (.inl ⟨rfl, ‹_›⟩)
  · split
    · exact .inr (.inr rfl)
    · exact .inl rfl

/-- Components that begin with where the path starts are read back. -/
theorem componentsOf_renderChars_cons {c : Component} (hc : componentsOf c.chars = [c])
    {cs : List Component} (h : ∀ c ∈ cs, IsStep c) :
    componentsOf (renderChars (c :: cs)) = c :: cs := by
  by_cases hne : cs = []
  · rw [hne, renderChars, List.map_singleton, List.intercalate_singleton, hc]
  · have hchars : c.chars ≠ [] := by
      intro hnil
      rw [hnil] at hc
      cases hc
    rw [renderChars_cons hne, componentsOf_append_slash hchars, hc, steps_renderChars h]
    rfl

/-- Components are read back from the text that they are rendered as. -/
theorem componentsOf_renderChars (cs : List Char) :
    componentsOf (renderChars (componentsOf cs)) = componentsOf cs := by
  have hsteps : ∀ c ∈ steps cs, IsStep c := fun c ↦ isStep_of_mem_steps
  rw [componentsOf_eq cs]
  obtain h | ⟨h, -⟩ | h := start_cases cs
  · rw [h]
    exact componentsOf_renderChars_steps hsteps
  · rw [h]
    exact componentsOf_renderChars_cons rfl hsteps
  · rw [h]
    exact componentsOf_renderChars_cons rfl hsteps

/-! ## Cutting down and joining again -/

theorem components_join (base : Path) (sub : String) :
    (base.join sub).components = componentsOf (joinChars base.text.toList sub.toList) := by
  rw [components, join, String.toList_ofList]

theorem isAbsolute_iff {p : Path} : p.isAbsolute ↔ p.text.toList.head? = some '/' :=
  decide_eq_true_iff

theorem not_isStep_root : ¬ IsStep .root := fun h ↦ h.2 List.mem_cons_self

/-- Only an absolute path has the root among its components, as the first of them. -/
theorem isAbsolute_iff_components {p : Path} :
    p.isAbsolute ↔ p.components.head? = some .root := by
  rw [isAbsolute_iff, components, componentsOf_eq]
  constructor
  · intro h
    rw [start, if_pos h]
    rfl
  · intro h
    obtain hstart | ⟨-, hslash⟩ | hstart := start_cases p.text.toList
    · rw [hstart, List.nil_append] at h
      exact absurd (isStep_of_mem_steps (List.mem_of_head? h)) not_isStep_root
    · exact hslash
    · rw [hstart] at h
      cases h

/-- What stands behind the beginning of a path consists of steps. -/
theorem isStep_of_append {cs : List Char} {front rest : List Component}
    (h : componentsOf cs = front ++ rest) (hne : front ≠ []) : ∀ c ∈ rest, IsStep c := by
  have hsteps : rest <:+ steps cs := by
    obtain ⟨c, front, rfl⟩ := List.exists_cons_of_ne_nil hne
    rw [componentsOf_eq] at h
    obtain hstart | ⟨hstart, -⟩ | hstart := start_cases cs
    · rw [hstart, List.nil_append] at h
      exact ⟨c :: front, h.symm⟩
    · rw [hstart] at h
      exact ⟨front, (List.cons.inj h).2.symm⟩
    · rw [hstart] at h
      exact ⟨front, (List.cons.inj h).2.symm⟩
  exact fun c hc ↦ isStep_of_mem_steps (hsteps.subset hc)

/-- No component of a relative path has a slash in it. -/
theorem isPart_of_relative {p : Path} (h : ¬ p.isAbsolute) : ∀ c ∈ p.components, IsPart c := by
  intro c hc
  rw [components, componentsOf_eq, List.mem_append] at hc
  obtain hc | hc := hc
  · obtain hstart | ⟨-, hslash⟩ | hstart := start_cases p.text.toList
    · rw [hstart] at hc
      cases hc
    · exact absurd (isAbsolute_iff.mpr hslash) h
    · rw [hstart, List.mem_singleton] at hc
      rw [hc]
      exact isPart_current
  · exact (isStep_of_mem_steps hc).isPart

theorem relativeTo_append {p base : Path} {rest : List Component}
    (h : p.components = base.components ++ rest) : p.relativeTo base = rest := by
  rw [relativeTo, h, if_pos (List.isPrefixOf_iff_prefix.mpr (List.prefix_append _ _)),
    List.drop_left]

/-- **Cutting a path down loses nothing.** What a path is relative to another one leads, joined to
that one, to the same components, if it lies under it or is absolute. -/
theorem components_join_relativeTo {p base : Path}
    (h : base.components <+: p.components ∨ p.isAbsolute) :
    (base.join (renderComponents (p.relativeTo base))).components = p.components := by
  rw [components_join, toList_renderComponents]
  by_cases hprefix : base.components <+: p.components
  · obtain ⟨rest, hrest⟩ := hprefix
    rw [relativeTo_append hrest.symm]
    by_cases hbase : base.text.toList = []
    · rw [components, hbase] at hrest
      rw [hbase, joinChars_nil, show rest = p.components from hrest]
      exact componentsOf_renderChars _
    · have hsteps := isStep_of_append hrest.symm (mt eq_nil_of_componentsOf hbase)
      have hparts : ∀ c ∈ rest, IsPart c := fun c hc ↦ (hsteps c hc).isPart
      rw [componentsOf_joinChars hbase (renderChars_relative hparts), steps_renderChars hsteps]
      exact hrest
  · have hslash := isAbsolute_iff.mp (h.resolve_left hprefix)
    have hall : p.relativeTo base = p.components := by
      rw [relativeTo, if_neg (mt List.isPrefixOf_iff_prefix.mp hprefix)]
    have hroot : p.components = .root :: steps p.text.toList := by
      rw [components, componentsOf_eq, start, if_pos hslash]
      rfl
    have hhead : (renderChars p.components).head? = some '/' := by
      rw [hroot]
      cases steps p.text.toList with
      | nil => rfl
      | cons c cs =>
        rw [renderChars_cons (List.cons_ne_nil c cs)]
        rfl
    rw [hall, joinChars_absolute hhead]
    exact componentsOf_renderChars _

end Conformance.Path
