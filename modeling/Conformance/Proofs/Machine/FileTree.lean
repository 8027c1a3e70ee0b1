import Conformance.Proofs.Machine.Walk
import Conformance.Proofs.Text.Utf8
/-!
# Writing files

A file that was written is found where its path leads and reads back, and every other file is left
where and as it was.
-/

namespace Conformance.Machine

namespace FileTree

open FileNode

/-- The location of the file that a path leads to. -/
def fileAt (t : FileTree) (path : String) : Option Location :=
  match t.resolve path true with
  | .ok ⟨l, some (.file _ _)⟩ => some l
  | _ => none

theorem fileAt_eq_some_iff {t : FileTree} {path : String} {l : Location} :
    t.fileAt path = some l ↔ ∃ c x, t.resolve path true = .ok ⟨l, some (.file c x)⟩ := by
  rw [fileAt]
  constructor
  · intro h
    split at h
    · rename_i l' c x hresolve
      cases h
      exact ⟨c, x, hresolve⟩
    · cases h
  · rintro ⟨c, x, h⟩
    rw [h]

/-- What emptying a file comes to: the path leads to a node that is left as it is, or to a place
where an empty file is afterwards. -/
theorem truncate_cases {t t' : FileTree} {path : String} {l : Location}
    (h : t.truncate path = .ok (l, t')) :
    (t' = t ∧ ∃ n, t.resolve path true = .ok ⟨l, some n⟩ ∧ ∀ c x, n ≠ .file c x) ∨
      ∃ node x, t.resolve path true = .ok ⟨l, node⟩ ∧ (∀ n, node = some n → n.isPassage = false) ∧
        t' = t.put l (some (.file .empty x)) := by
  rw [truncate] at h
  split at h
  · cases h
  cases hresolve : t.resolve path true with
  | error e =>
    rw [hresolve] at h
    cases h
  | ok place =>
    rw [hresolve] at h
    obtain ⟨location, _ | n⟩ := place
    · cases h
      exact .inr ⟨none, false, rfl, nofun, rfl⟩
    · cases n with
      | file c x =>
        cases h
        refine .inr ⟨_, x, rfl, ?_, rfl⟩
        rintro _ ⟨⟩
        rfl
      | directory es => cases h
      | _ =>
        cases h
        exact .inl ⟨rfl, _, rfl, fun _ _ h ↦ by cases h⟩

/-- What writing a file comes to: the path leads to a node that is left as it is, or to a place
where the file is afterwards. -/
theorem writeBytes_cases {t t' : FileTree} {path : String} {content : ByteArray}
    (h : t.writeBytes path content = .ok t') :
    (t' = t ∧ t.fileAt path = none) ∨
      ∃ l x root', t' = ⟨root', t.current⟩ ∧ Alike l t.root root' ∧
        t'.resolve path true = .ok ⟨l, some (.file content x)⟩ := by
  rw [writeBytes] at h
  cases htruncate : t.truncate path with
  | error e =>
    rw [htruncate] at h
    cases h
  | ok emptied =>
    obtain ⟨l, t₁⟩ := emptied
    simp only [htruncate, bind, Except.bind, pure, Except.pure] at h
    obtain ⟨rfl, n, hresolve, hn⟩ | ⟨node, x, hresolve, hnode, rfl⟩ := truncate_cases htruncate
    · -- What is there is no file, and takes the bytes without a trace.
      have hnode : some n = t₁.root.get? l := node_eq_of_resolve hresolve
      rw [← hnode] at h
      have ht : t' = t₁ := by
        cases n with
        | file c x => exact absurd rfl (hn c x)
        | _ => exact (Except.ok.inj h).symm
      refine .inl ⟨ht, Option.eq_none_iff_forall_ne_some.mpr ?_⟩
      intro m hm
      obtain ⟨c, x, hfile⟩ := fileAt_eq_some_iff.mp hm
      rw [hresolve] at hfile
      cases hfile
      exact hn c x rfl
    · have hroom : t.root.HasRoom l := hasRoom_of_resolve hresolve
      have hat : t.root.get? l = node := (node_eq_of_resolve hresolve).symm
      have halike := alike_set_file hroom (hat ▸ hnode) .empty x
      -- The file is put there twice: empty at first, and then with its content.
      have hempty : (t.root.set (some (.file .empty x)) l).get? l = some (.file .empty x) :=
        get?_set_self hroom _
      rw [put, hempty] at h
      cases h
      have hroom' := hasRoom_of_get? hempty
      have hstops : ∀ n, (t.root.set (some (.file .empty x)) l).get? l = some n →
          n.isPassage = false := by
        rw [hempty]
        rintro _ ⟨⟩
        rfl
      have halike' := halike.trans (alike_set_file hroom' hstops content x)
      have hwritten := resolve_alike halike' hresolve
      rw [get?_set_self hroom'] at hwritten
      exact .inr ⟨l, x, _, rfl, halike', hwritten⟩

theorem readBytes_eq {t : FileTree} {path : String} {l : Location} {c : ByteArray} {x : Bool}
    (h : t.resolve path true = .ok ⟨l, some (.file c x)⟩) : t.readBytes path = .ok c := by
  rw [readBytes, node, h]
  rfl

/-- A text that was written to a file is read back from it. -/
theorem readText_of_written {t t' : FileTree} {path text : String} {i : Location}
    (h : t.writeBytes path text.toUTF8 = .ok t') (hi : t'.fileAt path = some i) :
    t'.readText path = .ok text := by
  obtain ⟨rfl, hnone⟩ | ⟨l, x, root', -, -, hresolve⟩ := writeBytes_cases h
  · rw [hnone] at hi
    cases hi
  · rw [readText, readBytes_eq hresolve]
    simp only [bind, Except.bind, Utf8.toList_toUTF8, Utf8.decode?_encode]
    exact congrArg Except.ok String.ofList_toList

/-- Writing a file leaves every other one where and as it was. -/
theorem other_of_written {t t' : FileTree} {path other : String} {content : ByteArray}
    {i : Location} (h : t.writeBytes path content = .ok t') (hi : t'.fileAt other = some i)
    (hother : t'.fileAt path ≠ some i) :
    t.fileAt other = some i ∧ t'.readText other = t.readText other := by
  obtain ⟨rfl, -⟩ | ⟨l, x, root', rfl, halike, hresolve⟩ := writeBytes_cases h
  · exact ⟨hi, rfl⟩
  · obtain ⟨c, y, hresolve'⟩ := fileAt_eq_some_iff.mp hi
    have hat : root'.get? i = some (.file c y) := (node_eq_of_resolve hresolve').symm
    -- Nothing lies below a file, so the other one could only be the file that was written.
    have hl : ¬ l <+: i := by
      intro hprefix
      have hwritten : root'.get? l = some (.file content x) := (node_eq_of_resolve hresolve).symm
      rw [eq_of_isBelow hprefix hwritten rfl hat] at hother
      exact hother (fileAt_eq_some_iff.mpr ⟨content, x, hresolve⟩)
    have hbefore : t.resolve other true = .ok ⟨i, some (.file c y)⟩ := by
      have hback := resolve_alike halike.symm hresolve'
      rwa [halike.symm.get?_eq hl rfl hat] at hback
    refine ⟨fileAt_eq_some_iff.mpr ⟨c, y, hbefore⟩, ?_⟩
    rw [readText, readText, readBytes_eq hresolve', readBytes_eq hbefore]

end FileTree

end Conformance.Machine
