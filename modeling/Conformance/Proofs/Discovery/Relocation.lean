import Conformance.Proofs.Discovery.Identity
/-!
# Corpora that moved

One tree may be checked out below different corpora. Below a relative test directory a file goes by
the same name under each of them, and it carries the same extension. The exclude marker alone is
looked for in the whole path, so a corpus can hide tests by what its own path says: the tests found
are the same exactly as far as the marker is met alike. A marker without a slash does not reach over
the end of the corpus. It occurs in the path of the corpus, and then nothing is found at all, or
else the path below the corpus decides.
-/

namespace Conformance.Discovery

variable {corpus corpus' : Path} {rules : DiscoveryRules} {entries : List (String × Entry)}
  {names : List String}

/-! ## What does not depend on the corpus -/

/-- Components below a corpus are those of the test directory and of the names, unless the corpus is
the empty path and the test directory puts a `.` step first. -/
theorem relativeTo_fileAt_eq (hsub : rules.testSubdir.toList.head? ≠ some '/')
    (hcorpus : corpus.text.toList ≠ [] ∨
      (Path.segments rules.testSubdir.toList).head? ≠ some ['.'])
    (h : ∀ name ∈ names, IsFileName name) :
    (fileAt corpus rules names).relativeTo corpus
      = Path.steps rules.testSubdir.toList ++ names.map nameComponent := by
  have hroot : (searchRoot corpus rules).components
      = corpus.components ++ Path.steps rules.testSubdir.toList := by
    rw [searchRoot, Path.components_join]
    by_cases hempty : corpus.text.toList = []
    · rw [Path.components, hempty, Path.joinChars_nil, Path.componentsOf_eq,
        Path.start_eq_nil hsub (hcorpus.resolve_left (not_not_intro hempty))]
      rfl
    · exact Path.componentsOf_joinChars hempty hsub
  rw [Path.relativeTo_append]
  rw [components_fileAt h, hroot, List.append_assoc]

/-- A file goes by one name below all corpora. -/
theorem id_fileAt_eq (hsub : rules.testSubdir.toList.head? ≠ some '/')
    (hroots : (corpus.text = "" ↔ corpus'.text = "") ∨
      (Path.segments rules.testSubdir.toList).head? ≠ some ['.'])
    (h : ∀ name ∈ names, IsFileName name) :
    (testAt corpus (fileAt corpus rules names)).id
      = (testAt corpus' (fileAt corpus' rules names)).id := by
  have hempty {path : Path} (hpath : path.text ≠ "") : path.text.toList ≠ [] :=
    fun hnil ↦ hpath (String.ext hnil)
  by_cases hdot : (Path.segments rules.testSubdir.toList).head? ≠ some ['.']
  · rw [testAt, testAt, relativeTo_fileAt_eq hsub (.inr hdot) h,
      relativeTo_fileAt_eq hsub (.inr hdot) h]
  · have hboth := hroots.resolve_right hdot
    by_cases hcorpus : corpus.text = ""
    · obtain rfl : corpus = corpus' := by
        cases corpus
        cases corpus'
        exact congrArg Path.mk (hcorpus.trans (hboth.mp hcorpus).symm)
      rfl
    · rw [testAt, testAt, relativeTo_fileAt_eq hsub (.inl (hempty hcorpus)) h,
        relativeTo_fileAt_eq hsub (.inl (hempty (mt hboth.mpr hcorpus))) h]

/-- The last name on the way decides on the extension. -/
theorem extension?_fileAt_eq (h : ∀ name ∈ names, IsFileName name) (hne : names ≠ []) :
    (fileAt corpus rules names).extension? = (fileAt corpus' rules names).extension? := by
  have hlast (root : Path) : (fileAt root rules names).components.getLast?
      = (names.map nameComponent).getLast? := by
    rw [components_fileAt h,
      List.getLast?_append_of_ne_nil _ (mt List.map_eq_nil_iff.mp hne)]
  rw [Path.extension?, Path.extension?, Path.fileName?, Path.fileName?, hlast, hlast]

/-! ## The exclude marker -/

/-- The exclude marker occurs in a path. -/
def Marked (rules : DiscoveryRules) (path : Path) : Prop :=
  rules.excludeMarker ≠ "" ∧ rules.excludeMarker.toList <:+: path.text.toList

instance (rules : DiscoveryRules) (path : Path) : Decidable (Marked rules path) :=
  inferInstanceAs (Decidable (_ ∧ _))

theorem isTest_iff_not_marked {path : Path} :
    isTest rules path = true ↔
      path.extension? = some rules.extension.toList ∧ ¬ Marked rules path := by
  rw [isTest_iff, Marked, not_and_or, not_not]

/-- The files of a tree that carry the extension are met by the marker alike below two corpora. -/
def MarkedAlike (rules : DiscoveryRules) (entries : List (String × Entry))
    (corpus corpus' : Path) : Prop :=
  ∀ position names, Reaches (.directory entries) position names →
    (fileAt corpus rules names).extension? = some rules.extension.toList →
    (Marked rules (fileAt corpus rules names) ↔ Marked rules (fileAt corpus' rules names))

/-- Where the marker is met alike, the same files are tests. -/
theorem markedAlike_iff (hentries : Listed (.directory entries)) :
    MarkedAlike rules entries corpus corpus' ↔
      ∀ position names, Reaches (.directory entries) position names →
        isTest rules (fileAt corpus rules names) = isTest rules (fileAt corpus' rules names) := by
  refine forall₃_congr fun position names hreaches ↦ ?_
  have hextension : (fileAt corpus rules names).extension?
      = (fileAt corpus' rules names).extension? :=
    extension?_fileAt_eq (hreaches.isFileName hentries) hreaches.names_ne_nil
  rw [Bool.eq_iff_iff, isTest_iff_not_marked, isTest_iff_not_marked, ← hextension,
    and_congr_right_iff]
  exact forall_congr' fun _ ↦ not_iff_not.symm

/-! ### Markers without a slash -/

section Slash

variable {marker : List Char}

/-- What has no slash in it does not reach over one. -/
theorem infix_slash_iff (hne : marker ≠ []) (hslash : '/' ∉ marker) (xs ys : List Char) :
    marker <:+: xs ++ '/' :: ys ↔ marker <:+: xs ∨ marker <:+: ys := by
  have hempty {cs : List Char} (hcs : '/' ∉ cs) (h : cs <+: '/' :: ys) : cs = [] := by
    cases cs with
    | nil => rfl
    | cons c cs => exact absurd ((List.cons_prefix_cons.mp h).1 ▸ List.mem_cons_self) hcs
  rw [List.infix_append_iff, List.infix_cons_iff]
  constructor
  · rintro (h | (h | h) | ⟨front, rest, rfl, hfront, hrest⟩)
    · exact .inl h
    · exact absurd (hempty hslash h) hne
    · exact .inr h
    · rw [List.mem_append, not_or] at hslash
      rw [hempty hslash.2 hrest, List.append_nil]
      exact .inl hfront.isInfix
  · exact fun h ↦ h.imp_right fun h ↦ .inl (.inr h)

theorem infix_below_iff (hne : marker ≠ []) (hslash : '/' ∉ marker) (path below : List Char) :
    marker <:+: path ++ separator path ++ below ↔ marker <:+: path ∨ marker <:+: below := by
  have hnil : ¬ marker <:+: [] := fun h ↦ hne (List.infix_nil.mp h)
  rw [separator]
  split
  · rename_i h
    rw [List.append_nil]
    obtain rfl | hlast := h
    · rw [List.nil_append]
      exact (or_iff_right hnil).symm
    · obtain ⟨p, rfl⟩ := List.getLast?_eq_some_iff.mp hlast
      rw [List.append_assoc, List.singleton_append, infix_slash_iff hne hslash,
        infix_slash_iff hne hslash, or_iff_left hnil]
  · rw [List.append_assoc, List.singleton_append, infix_slash_iff hne hslash]

end Slash

theorem separator_append {sub : List Char} (hne : sub ≠ []) (path : List Char) :
    separator (path ++ sub) = separator sub := by
  simp only [separator, List.append_eq_nil_iff, hne, and_false,
    List.getLast?_append_of_ne_nil _ hne]

/-- What stands before the next name depends on the end of a path only. -/
theorem separator_below (path sub : List Char) :
    separator (path ++ separator path ++ sub) = separator sub := by
  by_cases hne : sub = []
  · rw [hne, List.append_nil]
    by_cases h : path = [] ∨ path.getLast? = some '/'
    · have hpath : separator path = [] := if_pos h
      rw [hpath, List.append_nil, hpath]
      rfl
    · have hpath : separator path = ['/'] := if_neg h
      rw [hpath, separator_append (List.cons_ne_nil _ _)]
      rfl
  · exact separator_append hne _

/-- The path of a file is that of its corpus and, behind a slash, the path below it. -/
theorem toList_text_fileAt (hsub : rules.testSubdir.toList.head? ≠ some '/')
    (h : ∀ name ∈ names, IsFileName name) (hne : names ≠ []) (corpus : Path) :
    (fileAt corpus rules names).text.toList = corpus.text.toList ++ separator corpus.text.toList
      ++ (fileAt ⟨""⟩ rules names).text.toList := by
  have hroot (root : Path) : (searchRoot root rules).text.toList
      = root.text.toList ++ separator root.text.toList ++ rules.testSubdir.toList := by
    rw [searchRoot, Path.join, String.toList_ofList, joinChars_relative hsub]
  have hnil : separator "".toList = [] := rfl
  obtain ⟨name, names, rfl⟩ := List.exists_cons_of_ne_nil hne
  obtain ⟨hname, hnames⟩ := List.forall_mem_cons.mp h
  rw [fileAt, fileAt, toList_text_foldl_join hname.1 fun n hn ↦ (hnames n hn).1,
    toList_text_foldl_join hname.1 fun n hn ↦ (hnames n hn).1, hroot, hroot, separator_below,
    separator_below]
  simp only [List.append_assoc]
  rfl

theorem marked_fileAt_iff (hsub : rules.testSubdir.toList.head? ≠ some '/')
    (hmarker : rules.excludeMarker ≠ "") (hslash : '/' ∉ rules.excludeMarker.toList)
    (h : ∀ name ∈ names, IsFileName name) (hne : names ≠ []) (corpus : Path) :
    Marked rules (fileAt corpus rules names) ↔
      Marked rules corpus ∨ Marked rules (fileAt ⟨""⟩ rules names) := by
  have hnil : rules.excludeMarker.toList ≠ [] := fun hnil ↦ hmarker (String.ext hnil)
  rw [Marked, toList_text_fileAt hsub h hne, infix_below_iff hnil hslash, Marked, Marked,
    and_or_left]

/-- Below a corpus with the marker in its path nothing is a test. -/
theorem testsBelow_of_marked (hsub : rules.testSubdir.toList.head? ≠ some '/')
    (hmarker : rules.excludeMarker ≠ "") (hslash : '/' ∉ rules.excludeMarker.toList)
    (hentries : Listed (.directory entries)) (hmarked : Marked rules corpus) :
    testsBelow corpus rules entries = [] := by
  rw [testsBelow, testsOf, List.map_eq_nil_iff, List.filter_eq_nil_iff]
  intro path hpath
  obtain ⟨⟨position, names⟩, hmem, rfl⟩ := List.mem_map.mp hpath
  have hreaches := mem_filesOf.mp hmem
  have hfile : Marked rules (fileAt corpus rules names) :=
    (marked_fileAt_iff hsub hmarker hslash (hreaches.isFileName hentries) hreaches.names_ne_nil
      corpus).mpr (.inl hmarked)
  exact fun htest ↦ (isTest_iff_not_marked.mp htest).2 hfile

/-! ## Names that are found -/

section Ids

theorem ids_testsBelow : (testsBelow corpus rules entries).map (·.id)
    = ((filesOf (.directory entries)).filter fun f ↦ isTest rules (fileAt corpus rules f.2)).map
      fun f ↦ (testAt corpus (fileAt corpus rules f.2)).id := by
  rw [testsBelow, testsOf, List.filter_map, List.map_map, List.map_map]
  rfl

/-- A file is a test exactly if its name is found. -/
theorem mem_ids_iff (hentries : Listed (.directory entries)) {position : List Nat}
    (hreaches : Reaches (.directory entries) position names) :
    (testAt corpus (fileAt corpus rules names)).id
        ∈ (testsBelow corpus rules entries).map (·.id) ↔
      isTest rules (fileAt corpus rules names) = true := by
  rw [ids_testsBelow, List.mem_map]
  constructor
  · rintro ⟨⟨position', names'⟩, hmem, hid⟩
    obtain ⟨hmem, htest⟩ := List.mem_filter.mp hmem
    have hreaches' := mem_filesOf.mp hmem
    rwa [names_eq_of_id (hreaches'.isFileName hentries) (hreaches.isFileName hentries) hid] at htest
  · intro htest
    exact ⟨(position, names), List.mem_filter.mpr ⟨mem_filesOf.mpr hreaches, htest⟩, rfl⟩

variable (hsub : rules.testSubdir.toList.head? ≠ some '/')
  (hroots : (corpus.text = "" ↔ corpus'.text = "") ∨
    (Path.segments rules.testSubdir.toList).head? ≠ some ['.'])
  (hentries : Listed (.directory entries))
include hsub hroots hentries

theorem ids_eq_of_markedAlike (h : MarkedAlike rules entries corpus corpus') :
    (testsBelow corpus rules entries).map (·.id)
      = (testsBelow corpus' rules entries).map (·.id) := by
  rw [markedAlike_iff hentries] at h
  rw [ids_testsBelow, ids_testsBelow, List.filter_congr fun f hf ↦ h f.1 f.2 (mem_filesOf.mp hf)]
  refine List.map_congr_left fun f hf ↦ ?_
  have hreaches := mem_filesOf.mp (List.mem_of_mem_filter hf)
  exact id_fileAt_eq hsub hroots (hreaches.isFileName hentries)

theorem markedAlike_of_ids_eq
    (h : (testsBelow corpus rules entries).map (·.id)
      = (testsBelow corpus' rules entries).map (·.id)) :
    MarkedAlike rules entries corpus corpus' := by
  rw [markedAlike_iff hentries]
  intro position names hreaches
  rw [Bool.eq_iff_iff, ← mem_ids_iff hentries hreaches, ← mem_ids_iff hentries hreaches, h,
    id_fileAt_eq hsub hroots (hreaches.isFileName hentries)]

end Ids

theorem ids_find (limit : Option UInt64) :
    (find corpus rules limit (some entries)).cases.map (·.id)
      = limit.elim ((testsBelow corpus rules entries).map (·.id))
        fun n ↦ ((testsBelow corpus rules entries).map (·.id)).take n.toNat := by
  cases limit with
  | none => rw [cases_find_none, Option.elim_none]
  | some n => rw [cases_find_some, Option.elim_some, List.map_take]

/-- **Moved corpora.** Let a tree lie below two corpora, of which both or neither are the empty path
unless the test directory begins without a `.` step. Then each file has the same name and the same
extension below both. The names found are the same, for every limit, if the exclude marker is met
alike, and without a limit only then. Without a marker this is so. A marker without a slash that
occurs in the path of a corpus leaves nothing below it; if it does not occur there, it is looked for
in the path below the corpus; so it is met alike if it occurs in the paths of both corpora or of
neither. -/
theorem ids_of_roots {corpus corpus' : Path} {rules : DiscoveryRules}
    {entries : List (String × Entry)} (hsub : (⟨rules.testSubdir⟩ : Path).isAbsolute = false)
    (hroots : (corpus.text = "" ↔ corpus'.text = "") ∨
      (Path.segments rules.testSubdir.toList).head? ≠ some ['.'])
    (hentries : Listed (.directory entries)) :
    (∀ position names, Reaches (.directory entries) position names →
      (testAt corpus (fileAt corpus rules names)).id
        = (testAt corpus' (fileAt corpus' rules names)).id ∧
      (fileAt corpus rules names).extension? = (fileAt corpus' rules names).extension?) ∧
    (MarkedAlike rules entries corpus corpus' → ∀ limit,
      (find corpus rules limit (some entries)).cases.map (·.id)
        = (find corpus' rules limit (some entries)).cases.map (·.id)) ∧
    ((find corpus rules none (some entries)).cases.map (·.id)
        = (find corpus' rules none (some entries)).cases.map (·.id) →
      MarkedAlike rules entries corpus corpus') ∧
    (rules.excludeMarker = "" → MarkedAlike rules entries corpus corpus') ∧
    (rules.excludeMarker ≠ "" → '/' ∉ rules.excludeMarker.toList →
      (Marked rules corpus → ∀ limit, (find corpus rules limit (some entries)).cases = []) ∧
      (¬ Marked rules corpus → ∀ position names, Reaches (.directory entries) position names →
        (Marked rules (fileAt corpus rules names) ↔ Marked rules (fileAt ⟨""⟩ rules names))) ∧
      ((Marked rules corpus ↔ Marked rules corpus') →
        MarkedAlike rules entries corpus corpus')) := by
  have hrelative : rules.testSubdir.toList.head? ≠ some '/' := of_decide_eq_false hsub
  refine ⟨?_, ?_, ?_, ?_, fun hmarker hslash ↦ ⟨?_, ?_, ?_⟩⟩
  · intro position names hreaches
    have hnames := hreaches.isFileName hentries
    exact ⟨id_fileAt_eq hrelative hroots hnames, extension?_fileAt_eq hnames hreaches.names_ne_nil⟩
  · intro halike limit
    rw [ids_find, ids_find, ids_eq_of_markedAlike hrelative hroots hentries halike]
  · rw [ids_find, ids_find, Option.elim_none, Option.elim_none]
    exact markedAlike_of_ids_eq hrelative hroots hentries
  · intro hempty position names _ _
    exact iff_of_false (fun h ↦ h.1 hempty) (fun h ↦ h.1 hempty)
  · intro hmarked limit
    have hnone := testsBelow_of_marked hrelative hmarker hslash hentries hmarked
    exact List.sublist_nil.mp (hnone ▸ cases_find_sublist limit)
  · intro hmarked position names hreaches
    rw [marked_fileAt_iff hrelative hmarker hslash (hreaches.isFileName hentries)
      hreaches.names_ne_nil, or_iff_right hmarked]
  · intro hboth position names hreaches _
    have hnames := hreaches.isFileName hentries
    rw [marked_fileAt_iff hrelative hmarker hslash hnames hreaches.names_ne_nil, hboth,
      ← marked_fileAt_iff hrelative hmarker hslash hnames hreaches.names_ne_nil]

/-- A relative corpus and an absolute one with a slash at its end; what the marker meets lies below
them. -/
theorem ids_of_roots_two_copies :
    let rules : DiscoveryRules := ⟨"./test", "js", "x"⟩
    let ids corpus := (find corpus rules none (some namesakes)).cases.map (·.id)
    MarkedAlike rules namesakes ⟨"corpus"⟩ ⟨"/tmp/copy/"⟩ ∧
      ids ⟨"corpus"⟩ = ids ⟨"/tmp/copy/"⟩ ∧ ids ⟨"corpus"⟩ = ["test/a.js"] := by
  intro rules ids
  have hmarker : rules.excludeMarker ≠ "" := by decide
  have hslash : '/' ∉ rules.excludeMarker.toList := by decide +kernel
  have hmarked : ¬ Marked rules ⟨"corpus"⟩ ∧ ¬ Marked rules ⟨"/tmp/copy/"⟩ := by decide +kernel
  have hroots : ((⟨"corpus"⟩ : Path).text = "" ↔ (⟨"/tmp/copy/"⟩ : Path).text = "") ∨
      (Path.segments rules.testSubdir.toList).head? ≠ some ['.'] := .inl (by decide)
  obtain ⟨-, hids, -, -, hslashless⟩ := ids_of_roots (by decide +kernel) hroots listed_namesakes
  have halike := (hslashless hmarker hslash).2.2 (iff_of_false hmarked.1 hmarked.2)
  exact ⟨halike, hids halike none, by decide +kernel⟩

/-- The names do depend on the corpus: a marker in its path hides every test, and below the empty
path a `.` step at the front of the test directory stays in the names. -/
theorem ids_depend_on_corpus :
    let ids (corpus : Path) (rules : DiscoveryRules) :=
      (find corpus rules none (some [("a.js", .file)])).cases.map (·.id)
    Listed (.directory [("a.js", .file)]) ∧
      ids ⟨"corpus"⟩ ⟨"test", "js", "_FIXTURES"⟩ = ["test/a.js"] ∧
      ids ⟨"_FIXTURES/corpus"⟩ ⟨"test", "js", "_FIXTURES"⟩ = [] ∧
      ids ⟨"corpus"⟩ ⟨"./test", "js", ""⟩ = ["test/a.js"] ∧
      ids ⟨""⟩ ⟨"./test", "js", ""⟩ = ["./test/a.js"] := by
  refine ⟨listed_single, ?_⟩
  decide +kernel

end Conformance.Discovery
