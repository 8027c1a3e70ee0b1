import Mathlib.Data.List.TakeWhile
import Conformance.Proofs.Discovery.Relocation
import Conformance.Report.Context
/-!
# Extensions and stems of file names

A file name is cut at its last dot, if something stands before that dot. What stands behind it is the
extension that discovery asks for, and what stands before it is the stem that a target goes by in
reports. A name without such a dot has no extension, not even the empty one, and is its own stem.

Both are read off the last component of a path, so neither depends on the directory of the file or
on what is spelled behind its name without naming anything. A path whose last component is no name
has no stem, and its target goes by the whole path.
-/

namespace Conformance

namespace Path

/-! ## Cutting a name at its last dot -/

section Split

variable {name stem extension : List Char}

theorem splitName?_of_notMem (h : '.' ∉ name) : splitName? name = none := by
  have hall : name.reverse.takeWhile (· ≠ '.') = name.reverse := by
    refine List.takeWhile_eq_self_iff.mpr fun c hc ↦ decide_eq_true ?_
    rintro rfl
    exact h (List.mem_reverse.mp hc)
  rw [splitName?, hall, List.reverse_reverse, List.drop_of_length_le]
  · rfl
  · rw [List.length_reverse]
    exact Nat.le_succ _

/-- The part behind the last dot has no dot in it, and this is how the last dot is found. -/
theorem splitName?_append (h : '.' ∉ extension) :
    splitName? (stem ++ '.' :: extension) = if stem = [] then none else some (stem, extension) := by
  have hdots : ∀ c ∈ extension.reverse, decide (c ≠ '.') = true := by
    intro c hc
    refine decide_eq_true ?_
    rintro rfl
    exact h (List.mem_reverse.mp hc)
  have hreverse : (stem ++ '.' :: extension).reverse = extension.reverse ++ '.' :: stem.reverse := by
    simp
  have hafter : ((stem ++ '.' :: extension).reverse.takeWhile (· ≠ '.')).reverse = extension := by
    rw [hreverse, List.takeWhile_append_of_pos hdots, List.takeWhile_cons_of_neg (by simp),
      List.append_nil, List.reverse_reverse]
  have hbefore : ((stem ++ '.' :: extension).reverse.drop (extension.length + 1)).reverse = stem := by
    rw [hreverse, ← List.length_reverse, List.drop_append, List.drop_of_length_le (Nat.le_succ _)]
    simp
  rw [splitName?, hafter, hbefore]

theorem exists_last_dot (h : '.' ∈ name) :
    ∃ stem extension, '.' ∉ extension ∧ name = stem ++ '.' :: extension := by
  obtain ⟨as, bs, hname, hnot⟩ := List.eq_append_cons_of_mem (List.mem_reverse.mpr h)
  refine ⟨bs.reverse, as.reverse, mt List.mem_reverse.mp hnot, ?_⟩
  rw [← List.reverse_reverse name, hname]
  simp

theorem splitName?_eq_some_iff : splitName? name = some (stem, extension) ↔
    '.' ∉ extension ∧ stem ≠ [] ∧ name = stem ++ '.' :: extension := by
  constructor
  · intro h
    by_cases hdot : '.' ∈ name
    · obtain ⟨stem', extension', hnot, rfl⟩ := exists_last_dot hdot
      rw [splitName?_append hnot] at h
      split at h
      · cases h
      · rename_i hne
        cases h
        exact ⟨hnot, hne, rfl⟩
    · rw [splitName?_of_notMem hdot] at h
      cases h
  · rintro ⟨hnot, hne, rfl⟩
    rw [splitName?_append hnot, if_neg hne]

end Split

/-- A name has an extension: it ends in a dot and the extension, and something stands before. -/
def HasExtension (name extension : String) : Prop :=
  '.' ∉ extension.toList ∧ ∃ stem, stem ≠ "" ∧ name = stem ++ "." ++ extension

/-- What stands before the last dot of a name, or the whole name if nothing does. -/
def IsStem (stem name : String) : Prop :=
  (∃ extension, '.' ∉ extension.toList ∧ stem ≠ "" ∧ name = stem ++ "." ++ extension) ∨
    stem = name ∧ ∀ extension, ¬ HasExtension name extension

theorem splitName?_eq_some_toList_iff {name stem extension : String} :
    splitName? name.toList = some (stem.toList, extension.toList) ↔
      '.' ∉ extension.toList ∧ stem ≠ "" ∧ name = stem ++ "." ++ extension := by
  have hname : name = stem ++ "." ++ extension ↔
      name.toList = stem.toList ++ '.' :: extension.toList := by
    rw [← String.toList_inj]
    simp [String.toList_append]
  rw [splitName?_eq_some_iff, hname]
  simp

theorem hasExtension_iff {name extension : String} :
    HasExtension name extension ↔
      ((splitName? name.toList).map Prod.snd) = some extension.toList := by
  rw [HasExtension, Option.map_eq_some_iff]
  constructor
  · rintro ⟨hnot, stem, hne, hname⟩
    exact ⟨_, splitName?_eq_some_toList_iff.mpr ⟨hnot, hne, hname⟩, rfl⟩
  · rintro ⟨⟨stem, _⟩, hsplit, rfl⟩
    rw [← String.toList_ofList (l := stem), splitName?_eq_some_toList_iff] at hsplit
    exact ⟨hsplit.1, _, hsplit.2⟩

/-- A name has exactly one stem. -/
theorem isStem_iff {stem name : String} :
    IsStem stem name ↔ stem = String.ofList (stemOf name.toList) := by
  rw [IsStem, stemOf]
  simp only [← splitName?_eq_some_toList_iff, hasExtension_iff]
  rcases hsplit : splitName? name.toList with _ | ⟨before, after⟩
  · simp
  · constructor
    · rintro (⟨extension, h⟩ | ⟨-, h⟩)
      · cases h
        exact String.ofList_toList.symm
      · exact absurd (congrArg some String.toList_ofList.symm) (h (String.ofList after))
    · rintro rfl
      refine .inl ⟨String.ofList after, ?_⟩
      rw [String.toList_ofList, String.toList_ofList]
      rfl

theorem IsStem.ne_empty {stem name : String} (h : IsStem stem name) (hname : name ≠ "") :
    stem ≠ "" := by
  obtain ⟨extension, -, hne, -⟩ | ⟨rfl, -⟩ := h
  · exact hne
  · exact hname

/-! ## The name at the end of a path -/

/-- The last part of a path that is neither empty nor a `.` step. -/
def lastPart? (p : Path) : Option (List Char) :=
  ((segments p.text.toList).filter fun part ↦ part ≠ [] ∧ part ≠ ['.']).getLast?

/-- The step that such a part stands for. -/
def stepOf (part : List Char) : Component :=
  if part = ['.', '.'] then .parent else .name part

theorem steps_eq_map (cs : List Char) :
    steps cs = ((segments cs).filter fun part ↦ part ≠ [] ∧ part ≠ ['.']).map stepOf := by
  rw [steps, ← List.filterMap_eq_map, List.filterMap_filter]
  refine List.filterMap_congr fun part _ ↦ ?_
  have hkeep : part ≠ [] ∧ part ≠ ['.'] ↔ ¬ (part = [] ∨ part = ['.']) := not_or.symm
  simp only [decide_eq_true_eq, hkeep]
  rw [component?]
  by_cases h : part = [] ∨ part = ['.']
  · rw [if_pos h, if_neg (not_not_intro h)]
  · rw [if_neg h, if_pos h, Function.comp_apply, stepOf]
    split <;> rfl

/-- The file name of a path is its last part, unless that is a step to the parent. -/
theorem fileName?_eq_filter (p : Path) : p.fileName? = p.lastPart?.filter (· ≠ ['.', '.']) := by
  have hlast : (steps p.text.toList).getLast? = p.lastPart?.map stepOf := by
    rw [steps_eq_map, List.getLast?_map, lastPart?]
  rw [fileName?, components, componentsOf_eq, List.getLast?_append, hlast]
  rcases p.lastPart? with _ | part
  · -- Without a step the path is just its start.
    obtain hstart | ⟨hstart, -⟩ | hstart := start_cases p.text.toList <;> rw [hstart] <;> rfl
  · rw [Option.map_some, Option.some_or, Option.filter_some, stepOf]
    by_cases hpart : part = ['.', '.'] <;> simp [hpart]

theorem fileName?_eq_none_iff {p : Path} :
    p.fileName? = none ↔ p.lastPart? = none ∨ p.lastPart? = some ['.', '.'] := by
  rw [fileName?_eq_filter]
  cases p.lastPart? <;> simp

end Path

namespace Discovery

variable {name : String}

theorem fileName?_join (h : IsFileName name) (dir : Path) :
    (dir.join name).fileName? = some name.toList := by
  rw [Path.fileName?, components_join_name h, List.getLast?_concat]
  rfl

/-- What stands behind the name of a file without naming anything does not count. -/
theorem components_join_trailing (h : IsFileName name) (dir : Path) {tail : String}
    (htail : tail ∈ ["", "/", "/."]) :
    (⟨(dir.join name).text ++ tail⟩ : Path).components = (dir.join name).components := by
  have hne : (dir.join name).text.toList ≠ [] := by
    intro hnil
    have hcomponents := components_join_name h dir
    rw [Path.components, hnil] at hcomponents
    exact List.append_ne_nil_of_right_ne_nil _ (List.cons_ne_nil _ _) hcomponents.symm
  rw [Path.components, String.toList_append]
  simp only [List.mem_cons, List.not_mem_nil, or_false] at htail
  obtain rfl | rfl | rfl := htail
  · rw [String.toList_empty, List.append_nil]
    rfl
  · exact (Path.componentsOf_append_slash hne []).trans (List.append_nil _)
  · exact (Path.componentsOf_append_slash hne ['.']).trans (List.append_nil _)

/-- A file has just the extensions of its name. -/
theorem extension?_join_eq_some_iff (h : IsFileName name) (dir : Path) (extension : String) :
    (dir.join name).extension? = some extension.toList ↔ Path.HasExtension name extension := by
  rw [Path.hasExtension_iff, Path.extension?, fileName?_join h]
  rfl

/-- A target goes by the stem of its name. -/
theorem targetName_of_fileName? {target : Path} (h : target.fileName? = some name.toList)
    (suite : String) :
    (ReportContext.ofTarget suite target).targetName = String.ofList (Path.stemOf name.toList) := by
  rw [ReportContext.ofTarget, Path.stem?, h]
  rfl

/-- **Extensions and stems.** Below any directory a file has an extension exactly if the extension has
no dot and the name ends in it, behind a dot with something in front; by this and the marker it is a
test. A target with this name, whatever its directory and with or without a closing slash or `.`
step, goes by what stands before the last dot of the name, or by the whole name if nothing does, and
so never by the empty text. A path has no file name exactly if its last part is no name, and then a
target goes by the whole path. -/
theorem names_cut_at_last_dot (h : IsFileName name) :
    (∀ (dir : Path) (rules : DiscoveryRules),
      ((dir.join name).extension? = some rules.extension.toList ↔
        Path.HasExtension name rules.extension) ∧
      (isTest rules (dir.join name) = true ↔
        Path.HasExtension name rules.extension ∧ ¬ Marked rules (dir.join name))) ∧
    (∃ stem, (∀ text, Path.IsStem text name ↔ text = stem) ∧ stem ≠ "" ∧
      ∀ (suite : String) (dir : Path), ∀ tail ∈ ["", "/", "/."],
        (ReportContext.ofTarget suite ⟨(dir.join name).text ++ tail⟩).targetName = stem) ∧
    ∀ (suite : String) (target : Path),
      (target.fileName? = none ↔ target.lastPart? = none ∨ target.lastPart? = some ['.', '.']) ∧
      (target.fileName? = none →
        (ReportContext.ofTarget suite target).targetName = target.text) := by
  refine ⟨fun dir rules ↦ ⟨extension?_join_eq_some_iff h dir _, ?_⟩, ?_,
    fun suite target ↦ ⟨Path.fileName?_eq_none_iff, fun hnone ↦ ?_⟩⟩
  · rw [isTest_iff_not_marked, extension?_join_eq_some_iff h]
  · have hne : name ≠ "" := fun e ↦ h.1.toList_ne_nil (congrArg String.toList e)
    refine ⟨_, fun _ ↦ Path.isStem_iff, (Path.isStem_iff.mpr rfl).ne_empty hne,
      fun suite dir tail htail ↦ ?_⟩
    refine targetName_of_fileName? ?_ suite
    rw [Path.fileName?, components_join_trailing h dir htail]
    exact fileName?_join h dir
  · rw [ReportContext.ofTarget, Path.stem?, hnone]
    rfl

/-- A name with two dots in front and one inside, and three paths without a name. -/
theorem names_cut_at_last_dot_of_three :
    IsFileName "..a.js" ∧
      (∀ dir : Path, (dir.join "..a.js").extension? = some "js".toList) ∧
      (ReportContext.ofTarget "s" ⟨"d/..a.js/."⟩).targetName = "..a" ∧
      ∀ text ∈ ["", "/", "a/.."], (⟨text⟩ : Path).fileName? = none ∧
        (ReportContext.ofTarget "s" ⟨text⟩).targetName = text := by
  have h : IsFileName "..a.js" := by decide +kernel
  obtain ⟨hextension, ⟨stem, hstem, -, hname⟩, hnone⟩ := names_cut_at_last_dot h
  refine ⟨h, fun dir ↦ ?_, ?_, fun text htext ↦ ?_⟩
  · exact (hextension dir ⟨"test", "js", ""⟩).1.mpr ⟨by decide +kernel, "..a", by decide, by decide⟩
  · rw [(hstem "..a").mp (.inl ⟨"js", by decide, by decide, by decide⟩)]
    exact hname "s" ⟨"d"⟩ "/." (by decide)
  · have hnameless : (⟨text⟩ : Path).fileName? = none := by
      revert text
      decide +kernel
    exact ⟨hnameless, (hnone "s" ⟨text⟩).2 hnameless⟩

end Discovery

end Conformance
