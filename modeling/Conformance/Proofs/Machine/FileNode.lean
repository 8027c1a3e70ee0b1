import Conformance.Machine.FileTree
/-!
# Replacing a node of a tree

A node can be put at a location if there is room: everything on the way is a directory. Afterwards
the node is found there, and nowhere else does a walk along a path see a difference. What a walk
sees of a node is its `face`, since of a directory it only needs to know that it is one.

So a tree with another file at a location is `Alike`: the two can be told apart at the location and
below only, and there no walk goes on in either of them.
-/

namespace Conformance.Machine

namespace FileNode

variable {root root' n n' : FileNode} {l m : Location} {name : String}

/-! ## Looking up and replacing -/

theorem lookup_setEntry_self (name : String) (n : FileNode) (es : List (String × FileNode)) :
    (setEntry name (some n) es).lookup name = some n := by
  induction es with
  | nil => exact List.lookup_cons_self
  | cons e es ih =>
    rw [setEntry]
    split
    · exact List.lookup_cons_self
    · rename_i h
      rw [List.lookup_cons, beq_false_of_ne (Ne.symm h)]
      exact ih

theorem lookup_setEntry_of_ne {name other : String} (h : other ≠ name) (n : FileNode)
    (es : List (String × FileNode)) :
    (setEntry name (some n) es).lookup other = es.lookup other := by
  induction es with
  | nil =>
    rw [setEntry, Option.map_some, Option.getD_some, List.lookup_cons, beq_false_of_ne h]
  | cons e es ih =>
    rw [setEntry]
    split
    · rename_i he
      rw [Option.map_some, Option.getD_some, List.lookup_cons, beq_false_of_ne h, List.lookup_cons,
        he, beq_false_of_ne h]
    · rw [List.lookup_cons, List.lookup_cons, ih]

theorem get?_cons (root : FileNode) (name : String) (l : Location) :
    root.get? (name :: l) = (root.entries.lookup name).bind (·.get? l) := by
  rw [get?]
  cases root.entries.lookup name <;> rfl

theorem get?_append (root : FileNode) (l m : Location) :
    root.get? (l ++ m) = (root.get? l).bind (·.get? m) := by
  induction l generalizing root with
  | nil => rfl
  | cons name l ih =>
    rw [List.cons_append, get?_cons, get?_cons, Option.bind_assoc]
    exact congrArg _ (funext fun n ↦ ih n)

theorem eq_directory_of_isDirectory (h : n.isDirectory) : ∃ es, n = .directory es := by
  cases n with
  | directory es => exact ⟨es, rfl⟩
  | _ => cases h

/-- Only a directory has something below it. -/
theorem eq_directory_of_get? (h : n.get? (name :: l) = some n') : ∃ es, n = .directory es := by
  cases n with
  | directory es => exact ⟨es, rfl⟩
  | _ => cases h

/-- There is room at a location: a node can be put there. -/
def HasRoom (root : FileNode) (l : Location) : Prop :=
  ∀ base name, l = base ++ [name] → ∃ es, root.get? base = some (.directory es)

theorem hasRoom_of_get? (h : root.get? l = some n) : root.HasRoom l := by
  rintro base name rfl
  rw [get?_append] at h
  obtain ⟨m, hm, hn⟩ := Option.bind_eq_some_iff.mp h
  obtain ⟨es, rfl⟩ := eq_directory_of_get? hn
  exact ⟨es, hm⟩

theorem HasRoom.eq_directory (h : root.HasRoom (name :: l)) : ∃ es, root = .directory es := by
  obtain ⟨es, hes⟩ := h _ _ (List.dropLast_concat_getLast (List.cons_ne_nil name l)).symm
  cases hbase : (name :: l).dropLast with
  | nil =>
    rw [hbase] at hes
    exact ⟨es, Option.some.inj hes⟩
  | cons first base =>
    rw [hbase] at hes
    exact eq_directory_of_get? hes

theorem HasRoom.below (h : root.HasRoom (name :: l)) (hn : root.entries.lookup name = some n) :
    n.HasRoom l := by
  rintro base last rfl
  obtain ⟨es, hes⟩ := h (name :: base) last rfl
  rw [get?_cons, hn] at hes
  exact ⟨es, hes⟩

/-- What lies on the way to a location with room. -/
theorem HasRoom.exists_child {next : String} (h : root.HasRoom (name :: next :: l)) :
    ∃ child, root.entries.lookup name = some child := by
  have hlast := (List.dropLast_concat_getLast (List.cons_ne_nil next l)).symm
  obtain ⟨es, hes⟩ := h (name :: (next :: l).dropLast) _ (congrArg (name :: ·) hlast)
  rw [get?_cons] at hes
  obtain ⟨child, hchild, -⟩ := Option.bind_eq_some_iff.mp hes
  exact ⟨child, hchild⟩

theorem get?_set_self (h : root.HasRoom l) (n : FileNode) :
    (root.set (some n) l).get? l = some n := by
  induction l generalizing root with
  | nil => rfl
  | cons name l ih =>
    cases l with
    | nil =>
      rw [set, get?_cons, entries, lookup_setEntry_self]
      rfl
    | cons next l =>
      obtain ⟨child, hchild⟩ := h.exists_child
      rw [set, hchild]
      · dsimp only
        rw [get?_cons, entries, lookup_setEntry_self]
        exact ih (h.below hchild)
      · exact List.cons_ne_nil _ _

/-! ## What a walk sees -/

/-- What a walk along a path sees of a node: of a directory, only that it is one. -/
def face : FileNode → FileNode
  | .directory _ => .directory []
  | n => n

/-- A walk may go on at a node. -/
def isPassage : FileNode → Bool
  | .directory _ | .link _ => true
  | _ => false

theorem eq_directory_of_face {o : Option FileNode} {es : List (String × FileNode)}
    (h : o.map face = some (.directory es)) : ∃ es', o = some (.directory es') := by
  obtain ⟨n, rfl, hface⟩ := Option.map_eq_some_iff.mp h
  cases n with
  | directory es' => exact ⟨es', rfl⟩
  | _ => cases hface

theorem eq_of_face {o : Option FileNode} (hn : n.isDirectory = false)
    (h : o.map face = some n) : o = some n := by
  obtain ⟨n', rfl, rfl⟩ := Option.map_eq_some_iff.mp h
  cases n' with
  | directory es => cases hn
  | _ => rfl

theorem face_eq (hn : n.isDirectory = false) : n.face = n := by
  cases n with
  | directory es => cases hn
  | _ => rfl

theorem get?_set_elsewhere (h : root.HasRoom l) (hm : ¬ l <+: m) (n : FileNode) :
    ((root.set (some n) l).get? m).map face = (root.get? m).map face := by
  induction l generalizing root m with
  | nil => exact absurd List.nil_prefix hm
  | cons name l ih =>
    -- The new root is a directory in which one entry differs.
    obtain ⟨child, hset, hchild⟩ : ∃ child,
        root.set (some n) (name :: l) = .directory (setEntry name (some child) root.entries) ∧
        ∀ r, ¬ l <+: r → (child.get? r).map face
          = ((root.entries.lookup name).bind (·.get? r)).map face := by
      cases l with
      | nil => exact ⟨n, rfl, fun r hr ↦ absurd List.nil_prefix hr⟩
      | cons next l =>
        obtain ⟨child, hchild⟩ := h.exists_child
        refine ⟨child.set (some n) (next :: l), ?_, ?_⟩
        · rw [set, hchild]
          exact List.cons_ne_nil _ _
        · intro r hr
          rw [hchild]
          exact ih (h.below hchild) hr
    rw [hset]
    cases m with
    | nil =>
      obtain ⟨es, rfl⟩ := h.eq_directory
      rfl
    | cons other r =>
      rw [get?_cons, get?_cons, entries]
      by_cases hother : other = name
      · subst hother
        rw [lookup_setEntry_self]
        exact hchild r fun hr ↦ hm ((List.cons_prefix_cons).mpr ⟨rfl, hr⟩)
      · rw [lookup_setEntry_of_ne hother]

/-- Nothing lies below a node that is not a directory. -/
theorem eq_of_isBelow (hm : l <+: m) (h : root.get? l = some n) (hn : n.isDirectory = false)
    (h' : root.get? m = some n') : m = l := by
  obtain ⟨r, rfl⟩ := hm
  cases r with
  | nil => exact List.append_nil l
  | cons name r =>
    rw [get?_append, h] at h'
    obtain ⟨es, rfl⟩ := eq_directory_of_get? h'
    cases hn

/-- Two trees differ for a walk at a location and below it only, where no walk goes on in either. -/
structure Alike (l : Location) (root root' : FileNode) : Prop where
  off : ∀ m, ¬ l <+: m → (root'.get? m).map face = (root.get? m).map face
  stops : ∀ m n, l <+: m → root.get? m = some n → n.isPassage = false
  stops' : ∀ m n, l <+: m → root'.get? m = some n → n.isPassage = false

theorem Alike.symm (h : Alike l root root') : Alike l root' root where
  off m hm := (h.off m hm).symm
  stops := h.stops'
  stops' := h.stops

theorem Alike.trans {root'' : FileNode} (h : Alike l root root') (h' : Alike l root' root'') :
    Alike l root root'' where
  off m hm := (h'.off m hm).trans (h.off m hm)
  stops := h.stops
  stops' := h'.stops'

theorem Alike.get?_directory {es : List (String × FileNode)} (h : Alike l root root')
    (hm : root.get? m = some (.directory es)) : ∃ es', root'.get? m = some (.directory es') := by
  by_cases hl : l <+: m
  · cases h.stops m _ hl hm
  · have hface := h.off m hl
    rw [hm] at hface
    exact eq_directory_of_face hface

theorem Alike.get?_eq (h : Alike l root root') (hl : ¬ l <+: m) (hn : n.isDirectory = false)
    (hm : root.get? m = some n) : root'.get? m = some n := by
  refine eq_of_face hn ?_
  rw [h.off m hl, hm, Option.map_some, face_eq hn]

/-- No walk goes on below a location if none goes on there. -/
theorem stops_below (h : ∀ n, root.get? l = some n → n.isPassage = false) :
    ∀ m n, l <+: m → root.get? m = some n → n.isPassage = false := by
  intro m n hm hn
  cases hl : root.get? l with
  | none =>
    obtain ⟨r, rfl⟩ := hm
    rw [get?_append, hl] at hn
    cases hn
  | some n' =>
    have hpassage := h n' hl
    have hdirectory : n'.isDirectory = false := by
      cases n' with
      | directory es => cases hpassage
      | _ => rfl
    rw [eq_of_isBelow hm hl hdirectory hn] at hn
    exact h n hn

/-- Putting a file where there is room, and no directory or link, changes nothing else to a walk. -/
theorem alike_set_file (hroom : root.HasRoom l)
    (hstops : ∀ n, root.get? l = some n → n.isPassage = false) (c : ByteArray) (x : Bool) :
    Alike l root (root.set (some (.file c x)) l) where
  off m hm := get?_set_elsewhere hroom hm _
  stops := stops_below hstops
  stops' := by
    refine stops_below ?_
    intro n hn
    rw [get?_set_self hroom] at hn
    cases hn
    rfl

end FileNode

end Conformance.Machine
