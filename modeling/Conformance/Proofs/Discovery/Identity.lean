import Conformance.Proofs.Discovery.Enumeration
import Conformance.Proofs.Executor.Deadline
import Conformance.Proofs.Harness.Pipeline
import Conformance.Proofs.Path.Components
import Conformance.Proofs.Tally.Resumption
import Mathlib.Data.List.Nodup
/-!
# Names of tests

A test goes by its path relative to the corpus. The corpus and its test directory may be spelled in
any way, and the test directory need not even lie in the corpus; in every case the name leads back
to the file when it is joined to the corpus. Since files below one search root differ in the names
on the way to them, different tests have different names, and whatever a run reports by name is
about one file only.
-/

namespace Conformance

namespace Discovery

/-! ## File names -/

/-- A name that a directory lists: no step to the directory itself or to its parent either. -/
def IsFileName (name : String) : Prop := IsName name ∧ name ≠ "." ∧ name ≠ ".."

instance : DecidablePred IsFileName := fun _ ↦ inferInstanceAs (Decidable (_ ∧ _))

/-- An entry as file systems have it: every directory at or below it holds file names that differ
from each other. -/
inductive Listed : Entry → Prop
  | file : Listed .file
  | other : Listed .other
  | unreadable : Listed .unreadable
  | directory {entries : List (String × Entry)} (hdistinct : (entries.map (·.1)).Nodup)
    (hnames : ∀ e ∈ entries, IsFileName e.1) (hbelow : ∀ e ∈ entries, Listed e.2) :
    Listed (.directory entries)

theorem Listed.wellNamed {entry : Entry} (h : Listed entry) : WellNamed entry := by
  induction h with
  | file => exact .file
  | other => exact .other
  | unreadable => exact .unreadable
  | directory hdistinct hnames _ ih =>
    exact .directory hdistinct (fun e he ↦ (hnames e he).1) ih

theorem Reaches.isFileName {entry : Entry} {position : List Nat} {names : List String}
    (h : Reaches entry position names) (hentry : Listed entry) :
    ∀ name ∈ names, IsFileName name := by
  induction h with
  | file => exact List.forall_mem_nil _
  | directory h hbelow ih =>
    cases hentry with
    | directory hdistinct hnames hentries =>
      have hmem := List.mem_of_getElem? h
      exact List.forall_mem_cons.mpr ⟨hnames _ hmem, ih (hentries _ hmem)⟩

/-- The component that a file name is. -/
def nameComponent (name : String) : Path.Component := .name name.toList

theorem nameComponent_injective : Function.Injective nameComponent := by
  intro name name' h
  exact String.toList_inj.mp (Path.Component.name.inj h)

theorem IsFileName.component? {name : String} (h : IsFileName name) :
    Path.component? name.toList = some (nameComponent name) := by
  have hdot : name.toList ≠ ['.'] := fun e ↦ h.2.1 (String.ext e)
  have hdots : name.toList ≠ ['.', '.'] := fun e ↦ h.2.2 (String.ext e)
  rw [Path.component?, if_neg (not_or.mpr ⟨h.1.toList_ne_nil, hdot⟩), if_neg hdots]
  rfl

theorem IsFileName.steps {name : String} (h : IsFileName name) :
    Path.steps name.toList = [nameComponent name] := by
  rw [Path.steps, Path.segments_of_not_mem h.1.2, List.filterMap_cons, h.component?]
  rfl

/-- A file name adds one component to a path, even to the empty one. -/
theorem components_join_name {name : String} (h : IsFileName name) (root : Path) :
    (root.join name).components = root.components ++ [nameComponent name] := by
  rw [Path.components_join]
  by_cases hroot : root.text.toList = []
  · have hdot : (Path.segments name.toList).head? ≠ some ['.'] := by
      rw [Path.segments_of_not_mem h.1.2]
      exact fun e ↦ h.2.1 (String.ext (Option.some.inj e))
    rw [Path.components, hroot, Path.joinChars_nil, Path.componentsOf_eq,
      Path.start_eq_nil h.1.relative hdot, h.steps]
    rfl
  · rw [Path.componentsOf_joinChars hroot h.1.relative, h.steps]
    rfl

theorem components_foldl_join {names : List String} (h : ∀ name ∈ names, IsFileName name)
    (root : Path) :
    (names.foldl Path.join root).components = root.components ++ names.map nameComponent := by
  induction names generalizing root with
  | nil => rw [List.foldl_nil, List.map_nil, List.append_nil]
  | cons name names ih =>
    obtain ⟨hname, hnames⟩ := List.forall_mem_cons.mp h
    rw [List.foldl_cons, ih hnames, components_join_name hname, List.append_assoc]
    rfl

/-! ## Files of a walk -/

section Walk

variable {corpus : Path} {rules : DiscoveryRules} {entries : List (String × Entry)}

/-- The file behind names below the search root. -/
def fileAt (corpus : Path) (rules : DiscoveryRules) (names : List String) : Path :=
  names.foldl Path.join (searchRoot corpus rules)

/-- A walk visits the files that are reached, each by the path of its names. -/
theorem file_mem_visitsAt {root path : Path} {entry : Entry} :
    .file path ∈ visitsAt root entry ↔
      ∃ position names, Reaches entry position names ∧ path = names.foldl Path.join root := by
  have hmem : .file path ∈ visitsAt root entry ↔
      path ∈ (visitsAt root entry).filterMap Visit.file? := by
    rw [List.mem_filterMap]
    constructor
    · exact fun h ↦ ⟨_, h, rfl⟩
    · rintro ⟨visit, h, hfile⟩
      cases visit with
      | file path => cases hfile; exact h
      | directory path => cases hfile
      | other path => cases hfile
      | failed path => cases hfile
  rw [hmem, filterMap_file?_visitsAt, List.mem_map]
  constructor
  · rintro ⟨⟨position, names⟩, h, rfl⟩
    exact ⟨position, names, mem_filesOf.mp h, rfl⟩
  · rintro ⟨position, names, h, rfl⟩
    exact ⟨(position, names), mem_filesOf.mpr h, rfl⟩

theorem components_fileAt {names : List String} (h : ∀ name ∈ names, IsFileName name) :
    (fileAt corpus rules names).components
      = (searchRoot corpus rules).components ++ names.map nameComponent :=
  components_foldl_join h _

/-- A search root lies under the corpus, or is absolute. -/
theorem searchRoot_cases (corpus : Path) (rules : DiscoveryRules) :
    corpus.components <+: (searchRoot corpus rules).components ∨
      (searchRoot corpus rules).isAbsolute := by
  rw [searchRoot, Path.components_join, Path.isAbsolute_iff, Path.join, String.toList_ofList]
  by_cases habs : rules.testSubdir.toList.head? = some '/'
  · rw [Path.joinChars_absolute habs]
    exact .inr habs
  · by_cases hcorpus : corpus.text.toList = []
    · rw [Path.components, hcorpus]
      exact .inl List.nil_prefix
    · rw [Path.componentsOf_joinChars hcorpus habs]
      exact .inl (List.prefix_append _ _)

/-- Names below the search root do not change where its path starts. -/
theorem isAbsolute_fileAt {names : List String} (h : ∀ name ∈ names, IsFileName name) :
    (fileAt corpus rules names).isAbsolute ↔ (searchRoot corpus rules).isAbsolute := by
  rw [Path.isAbsolute_iff_components, Path.isAbsolute_iff_components, components_fileAt h]
  cases (searchRoot corpus rules).components with
  | nil =>
    cases names with
    | nil => rfl
    | cons name names => exact iff_of_false nofun nofun
  | cons c cs => rfl

theorem fileAt_cases {names : List String} (h : ∀ name ∈ names, IsFileName name) :
    corpus.components <+: (fileAt corpus rules names).components ∨
      (fileAt corpus rules names).isAbsolute := by
  rw [isAbsolute_fileAt h, components_fileAt h]
  exact (searchRoot_cases corpus rules).imp_left fun hprefix ↦
    hprefix.trans (List.prefix_append _ _)

/-! ## Names lead back -/

/-- The name of a test leads back to its file, under the corpus or not. -/
theorem components_join_id {names : List String} (h : ∀ name ∈ names, IsFileName name) :
    (corpus.join (testAt corpus (fileAt corpus rules names)).id).components
      = (fileAt corpus rules names).components :=
  Path.components_join_relativeTo (fileAt_cases h)

/-- Below a relative test directory a file has parts of its own behind the corpus. -/
theorem relativeTo_fileAt {names : List String} (h : ∀ name ∈ names, IsFileName name)
    (hne : names ≠ []) (hsub : rules.testSubdir.toList.head? ≠ some '/') :
    (fileAt corpus rules names).relativeTo corpus ≠ [] ∧
      ∀ c ∈ (fileAt corpus rules names).relativeTo corpus, Path.IsPart c := by
  have hcomponents : (fileAt corpus rules names).components
      = (searchRoot corpus rules).components ++ names.map nameComponent := components_fileAt h
  have hlast : names.map nameComponent ≠ [] := mt List.map_eq_nil_iff.mp hne
  rw [searchRoot, Path.components_join] at hcomponents
  by_cases hcorpus : corpus.text.toList = []
  · have hnil : corpus.components = [] := by
      rw [Path.components, hcorpus]
      rfl
    have hall : (fileAt corpus rules names).relativeTo corpus
        = (fileAt corpus rules names).components :=
      Path.relativeTo_append (by rw [hnil, List.nil_append])
    have hrelative : ¬ (fileAt corpus rules names).isAbsolute := by
      rw [isAbsolute_fileAt h, Path.isAbsolute_iff, searchRoot, Path.join, String.toList_ofList,
        hcorpus, Path.joinChars_nil]
      exact hsub
    rw [hall]
    refine ⟨?_, Path.isPart_of_relative hrelative⟩
    rw [hcomponents]
    exact List.append_ne_nil_of_right_ne_nil _ hlast
  · rw [Path.componentsOf_joinChars hcorpus hsub, List.append_assoc] at hcomponents
    rw [Path.relativeTo_append hcomponents]
    refine ⟨List.append_ne_nil_of_right_ne_nil _ hlast, fun c hc ↦ ?_⟩
    exact (Path.isStep_of_append hcomponents (mt Path.eq_nil_of_componentsOf hcorpus) c hc).isPart

theorem id_relative {names : List String} (h : ∀ name ∈ names, IsFileName name)
    (hne : names ≠ []) (hsub : rules.testSubdir.toList.head? ≠ some '/') :
    (⟨(testAt corpus (fileAt corpus rules names)).id⟩ : Path).isAbsolute = false ∧
      [] ∉ Path.segments (testAt corpus (fileAt corpus rules names)).id.toList := by
  have ⟨hparts, hpart⟩ : (fileAt corpus rules names).relativeTo corpus ≠ [] ∧
      ∀ c ∈ (fileAt corpus rules names).relativeTo corpus, Path.IsPart c :=
    relativeTo_fileAt h hne hsub
  rw [testAt, Path.isAbsolute, Path.toList_renderComponents]
  exact ⟨decide_eq_false (Path.renderChars_relative hpart),
    Path.nil_not_mem_segments_renderChars hpart hparts⟩

/-! ## Names tell files apart -/

theorem names_eq_of_id {names names' : List String} (h : ∀ name ∈ names, IsFileName name)
    (h' : ∀ name ∈ names', IsFileName name)
    (hid : (testAt corpus (fileAt corpus rules names)).id
      = (testAt corpus (fileAt corpus rules names')).id) : names = names' := by
  have hcomponents : (corpus.join (testAt corpus (fileAt corpus rules names)).id).components
      = (fileAt corpus rules names).components := components_join_id h
  rw [hid, components_join_id h', components_fileAt h, components_fileAt h',
    List.append_cancel_left_eq] at hcomponents
  exact (nameComponent_injective.list_map hcomponents).symm

/-- The files below a search root all have different names as tests. -/
theorem nodup_ids (hentries : Listed (.directory entries)) :
    ((filesOf (.directory entries)).map
      fun f ↦ (testAt corpus (fileAt corpus rules f.2)).id).Nodup := by
  rw [List.Nodup, List.pairwise_map]
  refine (pairwise_filesOf _).imp_of_mem ?_
  rintro ⟨position, names⟩ ⟨position', names'⟩ hmem hmem' hlt hid
  have hreach := mem_filesOf.mp hmem
  have hreach' := mem_filesOf.mp hmem'
  obtain rfl := names_eq_of_id (hreach.isFileName hentries) (hreach'.isFileName hentries) hid
  rw [hreach.position_eq hreach' hentries.wellNamed] at hlt
  exact lt_irrefl _ hlt

theorem cases_find_sublist (limit : Option UInt64) :
    (find corpus rules limit (some entries)).cases.Sublist (testsBelow corpus rules entries) := by
  cases limit with
  | none => rw [cases_find_none]
  | some n =>
    rw [cases_find_some]
    exact List.take_sublist _ _

/-- Each test of a discovery stands for a file that the walk visits. -/
theorem mem_cases_find {limit : Option UInt64} {case : TestCase}
    (h : case ∈ (find corpus rules limit (some entries)).cases) :
    .file case.path ∈ visitsAt (searchRoot corpus rules) (.directory entries) ∧
      case = testAt corpus case.path := by
  have hmem := (cases_find_sublist limit).subset h
  rw [testsBelow, testsOf, List.mem_map] at hmem
  obtain ⟨path, hpath, rfl⟩ := hmem
  obtain ⟨⟨position, names⟩, hfile, rfl⟩ := List.mem_map.mp (List.mem_of_mem_filter hpath)
  exact ⟨file_mem_visitsAt.mpr ⟨position, names, mem_filesOf.mp hfile, rfl⟩, rfl⟩

theorem nodup_ids_find (hentries : Listed (.directory entries)) (limit : Option UInt64) :
    ((find corpus rules limit (some entries)).cases.map (·.id)).Nodup := by
  refine ((cases_find_sublist limit).map _).nodup ?_
  rw [testsBelow, testsOf, List.map_map]
  refine (List.filter_sublist.map _).nodup ?_
  rw [List.map_map]
  exact nodup_ids hentries

end Walk

end Discovery

/-! ## What a run reports -/

namespace Executor

variable {σ : Type} {x : Executor} {p : Platform σ} {observe : RunEvent → StateM σ Unit}
  {total index : ℕ} {s t : σ} {tally : Tally} {cases : List TestCase}
  {tests : List (TestCase × Outcome)} {deeds : List Deed} {result : Except Crash Tally}

/-- Running a test tells the observer nothing by itself. -/
theorem Attempt.tell_not_mem {case : TestCase} {result : Except Crash Outcome}
    (h : Attempt x case deeds result) (event : RunEvent) : .tell event ∉ deeds := by
  intro hmem
  have hstage : .told event ∈ course deeds := List.mem_filterMap.mpr ⟨_, hmem, rfl⟩
  rw [h.course_eq, List.mem_singleton] at hstage
  cases hstage

/-- Every outcome that the observer is told of is that of one of the tests. -/
theorem Testing.told
    (h : Testing x p observe .tell total index s tally cases tests deeds result t)
    {i n : ℕ} {o : Outcome} (htold : .tell (.testFinished i n o) ∈ deeds) :
    ∃ case ∈ cases, case.id = o.test := by
  induction h with
  | done index s tally => cases htold
  | crashed index tally cases h hrun => exact absurd htold (h.tell_not_mem _)
  | @overflowed s t u case deeds o' tally e index cases h hrun hobserve hrecord =>
    rw [List.mem_append, List.mem_singleton] at htold
    obtain htold | htold := htold
    · exact absurd htold (h.tell_not_mem _)
    · cases htold
      exact ⟨case, List.mem_cons_self, h.test_eq.symm⟩
  | @tested s t u v case deeds deeds' o' index tally tally' cases tests result h hrun hobserve
      hrecord hrest ih =>
    rw [List.mem_append, List.mem_cons] at htold
    obtain htold | htold | htold := htold
    · exact absurd htold (h.tell_not_mem _)
    · cases htold
      exact ⟨case, List.mem_cons_self, h.test_eq.symm⟩
    · obtain ⟨case', hmem, hid⟩ := ih htold
      exact ⟨case', List.mem_cons_of_mem case hmem, hid⟩

/-- Every failure that a tally keeps is that of one of the tests. -/
theorem Testing.kept {limit : UInt64} {tally : Tally}
    (h : Testing x p observe .tell total index s (.empty limit) cases tests deeds (.ok tally) t)
    {f : FailureSample} (hf : f ∈ tally.failures.toList) : ∃ case ∈ cases, case.id = f.test := by
  obtain ⟨hcases, -, -, hcount⟩ := h.complete
  rw [(Tally.accounts_of_recordAll hcount).failures_of_empty] at hf
  obtain ⟨o, ho, rfl⟩ := List.mem_map.mp (List.mem_of_mem_take hf)
  obtain ⟨test, htest, rfl⟩ := List.mem_map.mp (List.mem_of_mem_filter ho)
  refine ⟨test.1, ?_, (h.named test htest).symm⟩
  rw [← hcases]
  exact List.mem_map_of_mem htest

end Executor

namespace Harness

variable {σ : Type}

/-- A test name that a run reports: with an outcome that its observer is told of, or with a failure
that its tally keeps. -/
inductive Reports (journal : List Deed) (result : Except RunError RunReport) : String → Prop
  | outcome {i n : ℕ} {o : Outcome} (h : .tell (.testFinished i n o) ∈ journal) :
    Reports journal result o.test
  | failure {report : RunReport} {f : FailureSample} (hreport : result = .ok report)
    (h : f ∈ report.tally.failures.toList) : Reports journal result f.test

/-- What a run reports by name is about the tests among what its platform lists. -/
theorem journals_reports (h : Harness) (p : Platform σ) (observe : RunEvent → StateM σ Unit)
    (provide : Path → StateM σ (Except Fault CorpusStatus)) (root : Path) (s : σ) :
    Journals s (h.runWith p observe provide root)
      (h.runWith p.recorded (observed .tell observe) (provided provide) root) fun deeds result _ ↦
        ∃ t, ∀ name, Reports deeds result name →
          ∃ case ∈ (Discovery.find root h.rules h.maxTests
            (p.listing (Discovery.searchRoot root h.rules) t).1).cases, case.id = name := by
  refine .note_bind ?_
  rintro (f | status) t -
  · -- Without a corpus nothing is told and nothing is kept.
    refine .pure ⟨t, ?_⟩
    rintro _ (htold | ⟨⟨⟩, -⟩)
    exact absurd htold (by simp)
  refine .note_bind ?_
  rintro _ u -
  refine (journals_discover root u).and_eq.bind ?_
  rintro _ found v ⟨⟨listing, -, rfl, -⟩, hdiscover⟩
  cases hdiscover
  refine .note_bind ?_
  rintro _ w -
  refine (journals_runFrom _ 1 (.empty h.sampleLimit) _ w).bind ?_
  rintro deeds (e | tally) z ⟨tests, htesting⟩
  all_goals
    refine .pure ⟨u, ?_⟩
    rintro _ (htold | ⟨⟨⟩, hf⟩)
  · exact htesting.told (by simpa using htold)
  · exact htesting.told (by simpa using htold)
  · exact htesting.kept hf

end Harness

namespace Discovery

/-- Among the tests of a discovery, one with a given name is the only one. -/
theorem existsUnique_of_id {corpus : Path} {rules : DiscoveryRules} {limit : Option UInt64}
    {listing : Option (List (String × Entry))}
    (hlisted : ∀ entries, listing = some entries → Listed (.directory entries)) {name : String}
    (h : ∃ case ∈ (find corpus rules limit listing).cases, case.id = name) :
    ∃! case, case.id = name ∧ case ∈ (find corpus rules limit listing).cases := by
  obtain ⟨case, hcase, rfl⟩ := h
  refine ⟨case, ⟨rfl, hcase⟩, ?_⟩
  rintro case' ⟨hid, hcase'⟩
  cases listing with
  | none => cases hcase
  | some entries =>
    exact List.inj_on_of_nodup_map (nodup_ids_find (hlisted entries rfl) limit) hcase' hcase hid

/-- **Names identify tests.** The name of any file of a walk, joined to the corpus, has the
components of the path of the file, however corpus and test directory are spelled and whether or not
the file lies in the corpus; below a relative test directory the name is a relative path without
empty parts. Every test of a discovery has such a name, and no two have the same one. So every
outcome that an observer is told of, and every failure that a report keeps, names one test of the
run. -/
theorem ids_identify (corpus : Path) (rules : DiscoveryRules) :
    (∀ entries, Listed (.directory entries) →
      (∀ path, .file path ∈ visitsAt (searchRoot corpus rules) (.directory entries) →
        (corpus.join (testAt corpus path).id).components = path.components ∧
        ((⟨rules.testSubdir⟩ : Path).isAbsolute = false →
          (⟨(testAt corpus path).id⟩ : Path).isAbsolute = false ∧
          [] ∉ Path.segments (testAt corpus path).id.toList)) ∧
      ∀ limit,
        (∀ case ∈ (find corpus rules limit (some entries)).cases,
          .file case.path ∈ visitsAt (searchRoot corpus rules) (.directory entries) ∧
          case = testAt corpus case.path) ∧
        ((find corpus rules limit (some entries)).cases.map (·.id)).Nodup) ∧
    ∀ {σ : Type} (h : Harness) (p : Platform σ) (observe : RunEvent → StateM σ Unit)
      (provide : Path → StateM σ (Except Fault CorpusStatus)) (s : σ), h.rules = rules →
      (∀ t entries, (p.listing (searchRoot corpus rules) t).1 = some entries →
        Listed (.directory entries)) →
      ∃ journal t,
        h.runWith p.recorded (observed .tell observe) (provided provide) corpus (s, [])
          = ((h.runWith p observe provide corpus s).1, (h.runWith p observe provide corpus s).2,
              journal) ∧
        ∀ name, Harness.Reports journal (h.runWith p observe provide corpus s).1 name →
          ∃! case, case.id = name ∧ case ∈ (find corpus rules h.maxTests
            (p.listing (searchRoot corpus rules) t).1).cases := by
  refine ⟨fun entries hentries ↦ ⟨?_, fun limit ↦ ?_⟩, ?_⟩
  · intro path hpath
    obtain ⟨position, names, hreaches, rfl⟩ := file_mem_visitsAt.mp hpath
    have hnames := hreaches.isFileName hentries
    exact ⟨components_join_id hnames, fun hsub ↦
      id_relative hnames hreaches.names_ne_nil (of_decide_eq_false hsub)⟩
  · exact ⟨fun case ↦ mem_cases_find, nodup_ids_find hentries limit⟩
  · rintro σ h p observe provide s rfl hlisted
    obtain ⟨journal, hrun, t, hnames⟩ := h.journals_reports p observe provide corpus s []
    exact ⟨journal, t, hrun, fun name hname ↦ existsUnique_of_id (hlisted t) (hnames name hname)⟩

/-! ## Namesakes -/

/-- Two files of one name, in a directory and in a directory below it. -/
def namesakes : List (String × Entry) := [("a.js", .file), ("x", .directory [("a.js", .file)])]

theorem isFileName_js : IsFileName "a.js" := by decide +kernel

theorem listed_single : Listed (.directory [("a.js", .file)]) := by
  refine .directory (List.nodup_singleton _) ?_ ?_
  · exact List.forall_mem_singleton.mpr isFileName_js
  · exact List.forall_mem_singleton.mpr .file

theorem listed_namesakes : Listed (.directory namesakes) := by
  refine .directory (by decide +kernel) ?_ ?_
  · exact List.forall_mem_cons.mpr
      ⟨isFileName_js, List.forall_mem_singleton.mpr (by decide +kernel)⟩
  · exact List.forall_mem_cons.mpr ⟨.file, List.forall_mem_singleton.mpr listed_single⟩

/-- A stopwatch that lists the namesakes in every directory and starts no program. -/
def namesakeBench : Platform Nat where
  __ := Executor.stopwatch
  spawn _ _ := pure (.error .noEntry)
  listing _ := pure (some namesakes)

theorem ids_identify_namesakes :
    let corpus : Path := ⟨"corpus/."⟩
    let h : Harness := ⟨⟨⟨"t"⟩, .ofSecs 1, ""⟩, ⟨".//test/", "js", "_FIX"⟩, none, 2⟩
    let cases := (find corpus h.rules none (some namesakes)).cases
    let result := (h.runWith namesakeBench (fun _ ↦ pure ())
      (fun _ ↦ pure (.ok .alreadyPresent)) corpus 0).1
    cases.map (·.id) = ["test/a.js", "test/x/a.js"] ∧
      (∀ case ∈ cases, (corpus.join case.id).components = case.path.components) ∧
      (cases.map (·.id)).Nodup ∧
      ∃ journal, Harness.Reports journal result "test/x/a.js" ∧
        ∃! case, case.id = "test/x/a.js" ∧ case ∈ cases := by
  intro corpus h cases result
  obtain ⟨hdiscovery, hrun⟩ := ids_identify corpus h.rules
  obtain ⟨hback, hfound⟩ := hdiscovery namesakes listed_namesakes
  obtain ⟨hcases, hnodup⟩ := hfound none
  refine ⟨by decide +kernel, ?_, hnodup, ?_⟩
  · intro case hcase
    obtain ⟨hvisit, htest⟩ := hcases case hcase
    rw [htest]
    exact (hback _ hvisit).1
  obtain ⟨journal, t, -, hnames⟩ := hrun h namesakeBench (fun _ ↦ pure ())
    (fun _ ↦ pure (.ok .alreadyPresent)) 0 rfl (by rintro t _ ⟨⟩; exact listed_namesakes)
  have hkept : result.toOption.map (·.tally.failures.toList.map (·.test))
      = some ["test/a.js", "test/x/a.js"] := by
    decide +kernel
  have hreport : Harness.Reports journal result "test/x/a.js" := by
    obtain ⟨report, hreport, hfailures⟩ := Option.map_eq_some_iff.mp hkept
    obtain ⟨f, hf, hname⟩ := List.mem_map.mp (hfailures ▸ List.mem_cons_of_mem _ List.mem_cons_self)
    rw [← hname]
    exact .failure (eq_ok_of_toOption hreport) hf
  exact ⟨journal, hreport, hnames _ hreport⟩

end Discovery

end Conformance
