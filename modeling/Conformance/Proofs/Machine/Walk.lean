import Conformance.Proofs.Machine.FileNode
/-!
# Where paths lead

`Walks` lists the steps of a walk along names that goes well, and `Leads` goes on from link to link.
They say what `follow` and `followLinks` do, in a form that inductions can go along.

Paths lead to the same locations in trees that are alike. Where a path leads there is room for a
node, even if the name is free.
-/

namespace Conformance.Machine

namespace FileTree

open FileNode

variable {root root' : FileNode} {base base' l : Location} {name target path : String}
  {names rest : List String} {progress : Progress} {place : Place}

/-! ## Walks -/

/-- How a walk goes in another tree that has the same nodes on its way. -/
def Progress.inTree (root : FileNode) : Progress → Progress
  | .arrived place => .arrived ⟨place.location, root.get? place.location⟩
  | .atLink base target rest => .atLink base target rest

/-- A name that stands for an entry of a directory. -/
structure IsEntryName (name : String) : Prop where
  ne_current : name ≠ "."
  ne_parent : name ≠ ".."
  short : name.utf8ByteSize ≤ longestName

/-- A walk along names that goes well, step by step. -/
inductive Walks (root : FileNode) : Location → List String → Progress → Prop
  | arrived (base : Location) : Walks root base [] (.arrived ⟨base, root.get? base⟩)
  | here {base : Location} {rest : List String} {progress : Progress}
    {es : List (String × FileNode)} (hbase : root.get? base = some (.directory es))
    (h : Walks root base rest progress) : Walks root base ("." :: rest) progress
  | up {base : Location} {rest : List String} {progress : Progress}
    {es : List (String × FileNode)} (hbase : root.get? base = some (.directory es))
    (h : Walks root base.dropLast rest progress) : Walks root base (".." :: rest) progress
  | free {base : Location} {name : String} {es : List (String × FileNode)}
    (hbase : root.get? base = some (.directory es)) (hname : IsEntryName name)
    (hfree : root.get? (base ++ [name]) = none) :
    Walks root base [name] (.arrived ⟨base ++ [name], none⟩)
  | link {base : Location} {name target : String} (rest : List String)
    {es : List (String × FileNode)} (hbase : root.get? base = some (.directory es))
    (hname : IsEntryName name) (hlink : root.get? (base ++ [name]) = some (.link target)) :
    Walks root base (name :: rest) (.atLink base target rest)
  | down {base : Location} {name : String} {rest : List String} {progress : Progress}
    {es : List (String × FileNode)} {n : FileNode}
    (hbase : root.get? base = some (.directory es)) (hname : IsEntryName name)
    (hn : root.get? (base ++ [name]) = some n) (hlink : ∀ target, n ≠ .link target)
    (h : Walks root (base ++ [name]) rest progress) : Walks root base (name :: rest) progress

theorem walks_of_follow (h : follow root true base names = .ok progress) :
    Walks root base names progress := by
  induction names generalizing base with
  | nil =>
    cases h
    exact .arrived base
  | cons name rest ih =>
    rw [follow] at h
    split at h
    · cases h
    rename_i hbase
    obtain ⟨es, hbase⟩ : ∃ es, root.get? base = some (.directory es) := by
      rw [Bool.not_eq_true, Bool.not_eq_false', Option.any_eq_true] at hbase
      obtain ⟨n, hn, hdirectory⟩ := hbase
      obtain ⟨es, rfl⟩ := eq_directory_of_isDirectory hdirectory
      exact ⟨es, hn⟩
    split at h
    · rename_i hname
      rw [hname]
      exact .here hbase (ih h)
    split at h
    · rename_i hname
      rw [hname]
      exact .up hbase (ih h)
    split at h
    · cases h
    rename_i hcurrent hparent hshort
    have hname : IsEntryName name := ⟨hcurrent, hparent, Nat.not_lt.mp hshort⟩
    split at h
    · rename_i hfree
      split at h
      · rename_i hrest
        rw [List.isEmpty_iff.mp hrest]
        cases h
        exact .free hbase hname hfree
      · cases h
    · rename_i target hlink
      rw [Bool.not_true, Bool.and_false, if_neg Bool.false_ne_true] at h
      cases h
      exact .link rest hbase hname hlink
    · rename_i n hlink hn
      exact .down hbase hname hn hlink (ih h)

theorem follow_entry (rest : List String) {es : List (String × FileNode)}
    (hbase : root.get? base = some (.directory es)) (hname : IsEntryName name) :
    follow root true base (name :: rest) =
      match root.get? (base ++ [name]) with
      | none => if rest.isEmpty then .ok (.arrived ⟨base ++ [name], none⟩) else .error .noEntry
      | some (.link target) => .ok (.atLink base target rest)
      | some _ => follow root true (base ++ [name]) rest := by
  have hnotDirectory : ¬ (!(root.get? base).any (·.isDirectory)) := by
    rw [hbase]
    exact Bool.false_ne_true
  rw [follow, if_neg hnotDirectory, if_neg hname.ne_current, if_neg hname.ne_parent,
    if_neg (Nat.not_lt.mpr hname.short), Bool.not_true, Bool.and_false]
  rcases root.get? (base ++ [name]) with _ | n
  · rfl
  · cases n <;> rfl

theorem Walks.follow_eq (h : Walks root base names progress) :
    follow root true base names = .ok progress := by
  induction h with
  | arrived base => rfl
  | here hbase h ih =>
    rw [follow, hbase]
    exact ih
  | up hbase h ih =>
    rw [follow, hbase]
    exact ih
  | free hbase hname hfree =>
    rw [follow_entry [] hbase hname, hfree]
    rfl
  | link rest hbase hname hlink => rw [follow_entry rest hbase hname, hlink]
  | @down base name rest progress es n hbase hname hn hlink h ih =>
    rw [follow_entry rest hbase hname, hn]
    cases n with
    | link target => exact absurd rfl (hlink target)
    | _ => exact ih

/-- A walk ends at a node from which it cannot go on. -/
theorem Walks.eq_nil {n : FileNode} (h : Walks root base names progress)
    (hn : root.get? base = some n) (hpassage : n.isPassage = false) :
    names = [] ∧ progress = .arrived ⟨base, some n⟩ := by
  have hbase : ∀ es, root.get? base ≠ some (.directory es) := by
    rintro es hes
    rw [hn] at hes
    cases hes
    cases hpassage
  cases h with
  | arrived base => exact ⟨rfl, by rw [hn]⟩
  | here hes h => exact absurd hes (hbase _)
  | up hes h => exact absurd hes (hbase _)
  | free hes hname hfree => exact absurd hes (hbase _)
  | link rest hes hname hlink => exact absurd hes (hbase _)
  | down hes hname hn hlink h => exact absurd hes (hbase _)

/-- Where a walk arrives, it tells of the node there. -/
theorem Walks.node_eq (h : Walks root base names (.arrived place)) :
    place.node = root.get? place.location := by
  generalize hp : Progress.arrived place = progress at h
  induction h with
  | arrived base => cases hp; rfl
  | here hbase h ih => exact ih hp
  | up hbase h ih => exact ih hp
  | free hbase hname hfree =>
    cases hp
    exact hfree.symm
  | link rest hbase hname hlink => cases hp
  | down hbase hname hn hlink h ih => exact ih hp

/-- A walk that arrives ends where there is room, unless it has nowhere to begin. -/
theorem Walks.hasRoom (h : Walks root base names (.arrived place))
    (hbase : names ≠ [] ∨ (root.get? base).isSome) : root.HasRoom place.location := by
  generalize hp : Progress.arrived place = progress at h
  induction h with
  | arrived base =>
    cases hp
    obtain ⟨n, hn⟩ := Option.isSome_iff_exists.mp (hbase.resolve_left fun h ↦ h rfl)
    exact hasRoom_of_get? hn
  | here hes h ih => exact ih (.inr (by rw [hes]; rfl)) hp
  | @up base rest progress es hes h ih =>
    refine ih (.inr ?_) hp
    by_cases hbase : base = []
    · rw [hbase]
      rfl
    · obtain ⟨es', hes'⟩ := hasRoom_of_get? hes _ _ (List.dropLast_concat_getLast hbase).symm
      rw [hes']
      rfl
  | free hes hname hfree =>
    cases hp
    intro base' name' he
    obtain ⟨rfl, -⟩ := List.append_inj' he rfl
    exact ⟨_, hes⟩
  | link rest hes hname hlink => cases hp
  | down hes hname hn hlink h ih => exact ih (.inr (by rw [hn]; rfl)) hp

/-- A walk arrives at an entry from which none goes on. -/
theorem walks_entry {es : List (String × FileNode)}
    (hbase : root.get? base = some (.directory es)) (hname : IsEntryName name)
    (h : ∀ n, root.get? (base ++ [name]) = some n → n.isPassage = false) :
    Walks root base [name] (.arrived ⟨base ++ [name], root.get? (base ++ [name])⟩) := by
  cases hentry : root.get? (base ++ [name]) with
  | none => exact .free hbase hname hentry
  | some n =>
    refine .down hbase hname hentry ?_ ?_
    · rintro target rfl
      cases h _ hentry
    · have harrived : Walks root _ _ _ := .arrived (base ++ [name])
      rwa [hentry] at harrived

/-- A walk goes alike in two trees that it cannot tell apart, even if it ends where they differ. -/
theorem Walks.alike (halike : Alike l root root') (h : Walks root base names progress) :
    Walks root' base names (progress.inTree root') := by
  induction h with
  | arrived base => exact .arrived base
  | here hbase h ih =>
    obtain ⟨es', hbase'⟩ := halike.get?_directory hbase
    exact .here hbase' ih
  | up hbase h ih =>
    obtain ⟨es', hbase'⟩ := halike.get?_directory hbase
    exact .up hbase' ih
  | @free base name es hbase hname hfree =>
    -- The name may be taken in the other tree, but then by what no walk goes on from.
    obtain ⟨es', hbase'⟩ := halike.get?_directory hbase
    refine walks_entry hbase' hname ?_
    intro n hn
    by_cases hl : l <+: base ++ [name]
    · exact halike.stops' _ _ hl hn
    · have hface := halike.off _ hl
      rw [hn, hfree] at hface
      cases hface
  | @link base name target rest es hbase hname hlink =>
    obtain ⟨es', hbase'⟩ := halike.get?_directory hbase
    by_cases hl : l <+: base ++ [name]
    · cases halike.stops _ _ hl hlink
    · exact .link rest hbase' hname (halike.get?_eq hl rfl hlink)
  | @down base name rest progress es n hbase hname hn hlink h ih =>
    obtain ⟨es', hbase'⟩ := halike.get?_directory hbase
    by_cases hl : l <+: base ++ [name]
    · -- Nothing goes on from here, so the walk has arrived.
      obtain ⟨rfl, rfl⟩ := h.eq_nil hn (halike.stops _ _ hl hn)
      exact walks_entry hbase' hname fun n' hn' ↦ halike.stops' _ _ hl hn'
    · cases n with
      | directory es₁ =>
        obtain ⟨es₁', hn'⟩ := halike.get?_directory hn
        exact .down hbase' hname hn' (fun target h ↦ by cases h) ih
      | link target => exact absurd rfl (hlink target)
      | _ => exact .down hbase' hname (halike.get?_eq hl rfl hn) hlink ih

/-- A link is met in a directory. -/
theorem Walks.exists_directory (h : Walks root base names (.atLink base' target rest)) :
    ∃ es, root.get? base' = some (.directory es) := by
  generalize hp : Progress.atLink base' target rest = progress at h
  induction h with
  | arrived base => cases hp
  | here hes h ih => exact ih hp
  | up hes h ih => exact ih hp
  | free hes hname hfree => cases hp
  | link rest hes hname hlink =>
    cases hp
    exact ⟨_, hes⟩
  | down hes hname hn hlink h ih => exact ih hp

/-! ## Through links -/

/-- Where the names behind a link begin. -/
def linkBase (base : Location) (target : String) : Location :=
  if target.startsWith "/" then [] else base

/-- Where names lead, link by link. -/
inductive Leads (root : FileNode) : Nat → Location → List String → Place → Prop
  | arrived (links : Nat) {base : Location} {names : List String} {place : Place}
    (h : Walks root base names (.arrived place)) : Leads root links base names place
  | link {links : Nat} {base base' : Location} {names rest : List String} {target : String}
    {place : Place} (h : Walks root base names (.atLink base' target rest))
    (hrest : Leads root links (linkBase base' target) (namesOf target ++ rest) place) :
    Leads root (links + 1) base names place

variable {links : Nat}

theorem leads_of_followLinks (h : followLinks root true links base names = .ok place) :
    Leads root links base names place := by
  induction links generalizing base names with
  | zero =>
    rw [followLinks] at h
    cases hfollow : follow root true base names with
    | error e =>
      rw [hfollow] at h
      cases h
    | ok progress =>
      rw [hfollow] at h
      cases progress with
      | arrived place' =>
        cases h
        exact .arrived 0 (walks_of_follow hfollow)
      | atLink base' target rest => cases h
  | succ links ih =>
    rw [followLinks] at h
    cases hfollow : follow root true base names with
    | error e =>
      rw [hfollow] at h
      cases h
    | ok progress =>
      rw [hfollow] at h
      cases progress with
      | arrived place' =>
        cases h
        exact .arrived _ (walks_of_follow hfollow)
      | atLink base' target rest => exact .link (walks_of_follow hfollow) (ih h)

theorem Leads.followLinks_eq (h : Leads root links base names place) :
    followLinks root true links base names = .ok place := by
  induction h with
  | arrived links h =>
    cases links <;>
    · rw [followLinks, h.follow_eq]
      rfl
  | link h hrest ih =>
    rw [followLinks, h.follow_eq]
    exact ih

theorem Leads.alike (halike : Alike l root root') (h : Leads root links base names place) :
    Leads root' links base names ⟨place.location, root'.get? place.location⟩ := by
  induction h with
  | arrived links h => exact .arrived links (h.alike halike)
  | link h hrest ih => exact .link (h.alike halike) ih

theorem Leads.node_eq (h : Leads root links base names place) :
    place.node = root.get? place.location := by
  induction h with
  | arrived links h => exact h.node_eq
  | link h hrest ih => exact ih

theorem Leads.hasRoom (h : Leads root links base names place)
    (hbase : names ≠ [] ∨ (root.get? base).isSome) : root.HasRoom place.location := by
  induction h with
  | arrived links h => exact h.hasRoom hbase
  | link h hrest ih =>
    refine ih (.inr ?_)
    rw [linkBase]
    split
    · rfl
    · obtain ⟨es, hes⟩ := h.exists_directory
      rw [hes]
      rfl

/-! ## Resolving -/

/-- A text that begins with something else than a slash has a first segment that begins with it. -/
theorem segments_cons {c : Char} (hc : c ≠ '/') (cs : List Char) :
    ∃ s segments, Path.segments (c :: cs) = (c :: s) :: segments := by
  rw [Path.segments, if_neg hc]
  split
  · exact ⟨_, _, rfl⟩
  · exact ⟨_, _, rfl⟩

theorem namesOf_ne_nil (h : path ≠ "") (hrelative : path.startsWith "/" = false) :
    namesOf path ≠ [] := by
  -- A slash at the end adds a name to the steps, so one step is enough.
  have hsteps : stepsOf path ≠ [] := by
    obtain ⟨c, cs, hc, hcs⟩ : ∃ c cs, c ≠ '/' ∧ path.toList = c :: cs := by
      cases hpath : path.toList with
      | nil => exact absurd (String.toList_eq_nil_iff.mp hpath) h
      | cons c cs =>
        refine ⟨c, cs, ?_, rfl⟩
        rintro rfl
        rw [String.startsWith_string_eq_false_iff, hpath] at hrelative
        exact hrelative ⟨cs, rfl⟩
    obtain ⟨s, segments, hsegments⟩ := segments_cons hc cs
    rw [stepsOf, hcs, hsegments, List.filter_cons, if_pos (decide_eq_true (List.cons_ne_nil c s))]
    exact List.cons_ne_nil _ _
  rw [namesOf]
  split
  · exact List.append_ne_nil_of_right_ne_nil _ (List.cons_ne_nil _ _)
  · exact hsteps

/-- A path that can be resolved at all. -/
structure IsPath (path : String) : Prop where
  noNul : path.contains '\x00' = false
  nonempty : path ≠ ""
  short : path.utf8ByteSize < longestPath

/-- Where the names of a path begin. -/
def baseFor (t : FileTree) (path : String) : Location :=
  if path.startsWith "/" then [] else t.current

variable {t : FileTree}

theorem resolve_eq_ok_iff :
    t.resolve path true = .ok place ↔
      IsPath path ∧ Leads t.root mostLinks (t.baseFor path) (namesOf path) place := by
  constructor
  · intro h
    rw [resolve] at h
    split at h
    · cases h
    split at h
    · cases h
    split at h
    · cases h
    rename_i hnul hempty hlong
    exact ⟨⟨(Bool.not_eq_true _).mp hnul, hempty, Nat.not_le.mp hlong⟩, leads_of_followLinks h⟩
  · rintro ⟨hpath, hleads⟩
    rw [resolve, if_neg (Bool.eq_false_iff.mp hpath.noNul), if_neg hpath.nonempty,
      if_neg (Nat.not_le.mpr hpath.short)]
    exact hleads.followLinks_eq

theorem resolve_alike (halike : Alike l t.root root') (h : t.resolve path true = .ok place) :
    resolve ⟨root', t.current⟩ path true
      = .ok ⟨place.location, root'.get? place.location⟩ := by
  obtain ⟨hpath, hleads⟩ := resolve_eq_ok_iff.mp h
  exact resolve_eq_ok_iff.mpr ⟨hpath, hleads.alike halike⟩

theorem node_eq_of_resolve (h : t.resolve path true = .ok place) :
    place.node = t.root.get? place.location :=
  (resolve_eq_ok_iff.mp h).2.node_eq

theorem hasRoom_of_resolve (h : t.resolve path true = .ok place) :
    t.root.HasRoom place.location := by
  obtain ⟨hpath, hleads⟩ := resolve_eq_ok_iff.mp h
  refine hleads.hasRoom ?_
  rw [baseFor]
  split
  · exact .inr rfl
  · rename_i hrelative
    exact .inl (namesOf_ne_nil hpath.nonempty ((Bool.not_eq_true _).mp hrelative))

end FileTree

end Conformance.Machine
