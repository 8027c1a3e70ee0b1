import Mathlib.Data.List.Lex
import Conformance.Discovery
/-!
# The files of a tree

A walk meets the entries of a tree at their positions: the places among their siblings, from the
search root down. `Reaches` says, without a walk, which positions hold a regular file that is
reached through directories alone. The tests found are those files in the order of their positions,
each once, less what the rules leave out; and a limit cuts this list at its end, although the walk
itself stops early and passes over failures on the way.
-/

namespace Conformance

namespace Discovery

/-! ## The loop -/

/-- The regular file that a visit is to, if any. -/
def Visit.file? : Visit → Option Path
  | .file path => some path
  | .directory _ | .other _ | .failed _ => none

/-- The test that a visit is to, if any. -/
def Visit.test? (corpus : Path) (rules : DiscoveryRules) (visit : Visit) : Option TestCase :=
  (visit.file?.filter (isTest rules)).map (testAt corpus)

/-- The tests among some files. -/
def testsOf (corpus : Path) (rules : DiscoveryRules) (files : List Path) : List TestCase :=
  (files.filter (isTest rules)).map (testAt corpus)

section Loop

variable {corpus : Path} {rules : DiscoveryRules}

theorem filterMap_test? (visits : List Visit) :
    visits.filterMap (·.test? corpus rules)
      = testsOf corpus rules (visits.filterMap Visit.file?) := by
  rw [testsOf, ← List.filterMap_eq_filter, List.filterMap_filterMap, List.map_filterMap]
  refine List.filterMap_congr fun visit _ ↦ ?_
  cases visit <;> rfl

theorem takeUp_eq (found : Array TestCase) (visit : Visit) :
    takeUp corpus rules found visit
      = ((visit.test? corpus rules).map found.push).getD found := by
  cases visit with
  | file path =>
    by_cases h : isTest rules path = true <;>
      simp [takeUp, Visit.test?, Visit.file?, Option.filter, h]
  | directory path => rfl
  | other path => rfl
  | failed path => rfl

theorem toList_gather_none (found : Array TestCase) (visits : List Visit) :
    (gather corpus rules none found visits).toList
      = found.toList ++ visits.filterMap (·.test? corpus rules) := by
  induction visits generalizing found with
  | nil => rw [gather, List.filterMap_nil, List.append_nil]
  | cons visit visits ih =>
    rw [gather, if_neg (by simp), ih, takeUp_eq, List.filterMap_cons]
    cases visit.test? corpus rules with
    | none => rfl
    | some t => simp

/-- Stopping at the limit takes up the first of the tests, as many as there is still room for. -/
theorem toList_gather_some (n : UInt64) (found : Array TestCase) (visits : List Visit) :
    (gather corpus rules (some n) found visits).toList
      = found.toList
        ++ (visits.filterMap (·.test? corpus rules)).take (n.toNat - found.size) := by
  induction visits generalizing found with
  | nil => rw [gather, List.filterMap_nil, List.take_nil, List.append_nil]
  | cons visit visits ih =>
    rw [gather]
    by_cases hfull : n.toNat ≤ found.size
    · rw [if_pos (by simpa using hfull), Nat.sub_eq_zero_of_le hfull, List.take_zero,
        List.append_nil]
    · rw [if_neg (by simpa using hfull), ih, takeUp_eq, List.filterMap_cons]
      cases visit.test? corpus rules with
      | none => rfl
      | some t =>
        -- One test more is taken up, which leaves room for one less.
        have hroom : n.toNat - found.size = n.toNat - (found.size + 1) + 1 := by omega
        simp [hroom]

end Loop

/-! ## Positions -/

/-- A regular file at or below an entry, reached through directories alone: its position, and the
names on the way to it. -/
inductive Reaches : Entry → List Nat → List String → Prop
  | file : Reaches .file [] []
  | directory {entries : List (String × Entry)} {place : Nat} {name : String} {entry : Entry}
    {position : List Nat} {names : List String} (h : entries[place]? = some (name, entry))
    (hbelow : Reaches entry position names) :
    Reaches (.directory entries) (place :: position) (name :: names)

mutual

/-- The positions of the files at or below an entry, each with the names on the way. -/
def filesOf : Entry → List (List Nat × List String)
  | .file => [([], [])]
  | .other | .unreadable => []
  | .directory entries => filesFrom 0 entries

/-- The positions of the files below the entries of a directory from a place on. -/
def filesFrom (place : Nat) : List (String × Entry) → List (List Nat × List String)
  | [] => []
  | (name, entry) :: rest =>
    (filesOf entry).map (fun f ↦ (place :: f.1, name :: f.2)) ++ filesFrom (place + 1) rest

end

mutual

/-- The walk meets the files in the order of their positions. -/
theorem filterMap_file?_visitsAt (path : Path) (entry : Entry) :
    (visitsAt path entry).filterMap Visit.file?
      = (filesOf entry).map fun f ↦ f.2.foldl Path.join path := by
  cases entry with
  | file => rfl
  | other => rfl
  | unreadable => rfl
  | directory entries =>
    rw [visitsAt, filesOf, List.filterMap_cons]
    exact filterMap_file?_visitsBelow path 0 entries

theorem filterMap_file?_visitsBelow (path : Path) (place : Nat)
    (entries : List (String × Entry)) :
    (visitsBelow path entries).filterMap Visit.file?
      = (filesFrom place entries).map fun f ↦ f.2.foldl Path.join path := by
  cases entries with
  | nil => rfl
  | cons e rest =>
    obtain ⟨name, entry⟩ := e
    rw [visitsBelow, filesFrom, List.filterMap_append, List.map_append, List.map_map,
      filterMap_file?_visitsAt (path.join name) entry,
      filterMap_file?_visitsBelow path (place + 1) rest]
    rfl

end

theorem Reaches.names_ne_nil {entries : List (String × Entry)} {position : List Nat}
    {names : List String} (h : Reaches (.directory entries) position names) : names ≠ [] := by
  cases h
  exact List.cons_ne_nil _ _

theorem reaches_succ {e : String × Entry} {rest : List (String × Entry)} {place : Nat}
    {position : List Nat} {names : List String} :
    Reaches (.directory (e :: rest)) ((place + 1) :: position) names ↔
      Reaches (.directory rest) (place :: position) names := by
  refine ⟨fun h ↦ ?_, fun h ↦ ?_⟩
  · cases h with
    | directory h hbelow => exact .directory h hbelow
  · cases h with
    | directory h hbelow => exact .directory h hbelow

mutual

theorem mem_filesOf {entry : Entry} {position : List Nat} {names : List String} :
    (position, names) ∈ filesOf entry ↔ Reaches entry position names := by
  cases entry with
  | file =>
    rw [filesOf, List.mem_singleton]
    refine ⟨?_, ?_⟩
    · rintro ⟨⟩
      exact .file
    · rintro ⟨⟩
      rfl
  | other => exact ⟨nofun, nofun⟩
  | unreadable => exact ⟨nofun, nofun⟩
  | directory entries =>
    rw [filesOf, mem_filesFrom]
    refine ⟨?_, fun h ↦ ?_⟩
    · rintro ⟨i, position, rfl, h⟩
      rwa [Nat.zero_add]
    · cases position with
      | nil => cases h
      | cons i position => exact ⟨i, position, by rw [Nat.zero_add], h⟩

theorem mem_filesFrom {place : Nat} {entries : List (String × Entry)} {position : List Nat}
    {names : List String} :
    (position, names) ∈ filesFrom place entries ↔
      ∃ i position', position = (place + i) :: position' ∧
        Reaches (.directory entries) (i :: position') names := by
  cases entries with
  | nil =>
    refine ⟨nofun, ?_⟩
    rintro ⟨i, position, rfl, h⟩
    cases h with
    | directory h hbelow => cases h
  | cons e rest =>
    rw [filesFrom, List.mem_append, List.mem_map, mem_filesFrom]
    refine ⟨?_, ?_⟩
    · rintro (⟨⟨position, names⟩, hmem, ⟨⟩⟩ | ⟨i, position, rfl, h⟩)
      · exact ⟨0, position, rfl, .directory rfl (mem_filesOf.mp hmem)⟩
      · exact ⟨i + 1, position, by rw [Nat.add_right_comm, Nat.add_assoc], reaches_succ.mpr h⟩
    · rintro ⟨_ | i, position, rfl, h⟩
      · cases h with
        | directory h hbelow =>
          cases h
          exact .inl ⟨_, mem_filesOf.mpr hbelow, rfl⟩
      · exact .inr ⟨i, position, by rw [Nat.add_right_comm, Nat.add_assoc], reaches_succ.mp h⟩

end

mutual

/-- The files are listed in the order of their positions, the first place deciding first. -/
theorem pairwise_filesOf (entry : Entry) : (filesOf entry).Pairwise (·.1 < ·.1) := by
  cases entry with
  | file => exact List.pairwise_singleton _ _
  | other => exact .nil
  | unreadable => exact .nil
  | directory entries => exact pairwise_filesFrom 0 entries

theorem pairwise_filesFrom (place : Nat) (entries : List (String × Entry)) :
    (filesFrom place entries).Pairwise (·.1 < ·.1) := by
  cases entries with
  | nil => exact .nil
  | cons e rest =>
    rw [filesFrom, List.pairwise_append, List.pairwise_map]
    refine ⟨?_, pairwise_filesFrom (place + 1) rest, ?_⟩
    · exact (pairwise_filesOf e.2).imp fun h ↦ List.cons_lt_cons_iff.mpr (.inr ⟨rfl, h⟩)
    · -- What lies below this entry comes before what lies below later ones.
      rintro _ hbefore ⟨position, names⟩ hbehind
      obtain ⟨f, -, rfl⟩ := List.mem_map.mp hbefore
      obtain ⟨i, position, rfl, -⟩ := mem_filesFrom.mp hbehind
      exact List.cons_lt_cons_iff.mpr (.inl (by omega))

end

/-! ## Names -/

/-- A name as directories have them: not empty, and without a slash. -/
def IsName (name : String) : Prop := name ≠ "" ∧ '/' ∉ name.toList

instance : DecidablePred IsName := fun _ ↦ inferInstanceAs (Decidable (_ ∧ _))

/-- Every directory at or below an entry holds names that differ from each other. -/
inductive WellNamed : Entry → Prop
  | file : WellNamed .file
  | other : WellNamed .other
  | unreadable : WellNamed .unreadable
  | directory {entries : List (String × Entry)} (hdistinct : (entries.map (·.1)).Nodup)
    (hnames : ∀ e ∈ entries, IsName e.1) (hbelow : ∀ e ∈ entries, WellNamed e.2) :
    WellNamed (.directory entries)

theorem Reaches.isName {entry : Entry} {position : List Nat} {names : List String}
    (h : Reaches entry position names) (hentry : WellNamed entry) :
    ∀ name ∈ names, IsName name := by
  induction h with
  | file => exact List.forall_mem_nil _
  | directory h hbelow ih =>
    cases hentry with
    | directory hdistinct hnames hentries =>
      have hmem := List.mem_of_getElem? h
      exact List.forall_mem_cons.mpr ⟨hnames _ hmem, ih (hentries _ hmem)⟩

/-- Where names differ from each other, they lead to one position. -/
theorem Reaches.position_eq {entry : Entry} {position position' : List Nat} {names : List String}
    (h : Reaches entry position names) (h' : Reaches entry position' names)
    (hentry : WellNamed entry) : position = position' := by
  induction h generalizing position' with
  | file =>
    cases h'
    rfl
  | @directory entries place name entry position names h hbelow ih =>
    cases h' with
    | @directory _ place' _ entry' position' _ h' hbelow' =>
      cases hentry with
      | directory hdistinct hnames hentries =>
        have hlt : place < (entries.map (·.1)).length := by
          rw [List.length_map]
          exact (List.getElem?_eq_some_iff.mp h).1
        have hplace : (entries.map (·.1))[place]? = (entries.map (·.1))[place']? := by
          rw [List.getElem?_map, List.getElem?_map, h, h']
          rfl
        cases (List.getElem?_inj hlt hdistinct).mp hplace
        cases h.symm.trans h'
        rw [ih hbelow' (hentries _ (List.mem_of_getElem? h))]

/-! ## Paths -/

/-- What stands between a path and a name that is joined to it. -/
def separator (path : List Char) : List Char :=
  if path = [] ∨ path.getLast? = some '/' then [] else ['/']

/-- The text of names below a path, behind the first of them. -/
def belowText (names : List String) : List Char := names.flatMap fun name ↦ '/' :: name.toList

theorem IsName.toList_ne_nil {name : String} (h : IsName name) : name.toList ≠ [] := by
  intro hnil
  exact h.1 (String.ext hnil)

theorem IsName.relative {name : String} (h : IsName name) : name.toList.head? ≠ some '/' :=
  fun hhead ↦ h.2 (List.mem_of_head? hhead)

theorem joinChars_relative {sub : List Char} (h : sub.head? ≠ some '/') (path : List Char) :
    Path.joinChars path sub = path ++ separator path ++ sub := by
  rw [Path.joinChars, if_neg h, separator]
  split <;> simp

/-- Behind a name there is a slash before the next one. -/
theorem separator_append_name {name : String} (h : IsName name) (path : List Char) :
    separator (path ++ name.toList) = ['/'] := by
  have hlast : name.toList.getLast? ≠ some '/' := fun hlast ↦ h.2 (List.mem_of_getLast? hlast)
  rw [separator, if_neg]
  rw [List.append_eq_nil_iff, List.getLast?_append_of_ne_nil _ h.toList_ne_nil]
  rintro (hnil | hslash)
  · exact h.toList_ne_nil hnil.2
  · exact hlast hslash

theorem toList_text_join {name : String} (h : IsName name) (root : Path) :
    (root.join name).text.toList
      = root.text.toList ++ separator root.text.toList ++ name.toList := by
  rw [Path.join, String.toList_ofList, joinChars_relative h.relative]

theorem toList_text_foldl_join {root : Path} {name : String} {names : List String}
    (h : IsName name) (hnames : ∀ n ∈ names, IsName n) :
    ((name :: names).foldl Path.join root).text.toList
      = root.text.toList ++ separator root.text.toList ++ (name.toList ++ belowText names) := by
  induction names generalizing root name with
  | nil => rw [List.foldl_cons, List.foldl_nil, toList_text_join h, belowText, List.flatMap_nil,
      List.append_nil]
  | cons n names ih =>
    obtain ⟨hn, hnames⟩ := List.forall_mem_cons.mp hnames
    rw [List.foldl_cons, ih hn hnames, toList_text_join h, separator_append_name h, belowText,
      belowText, List.flatMap_cons]
    simp

theorem takeWhile_name {name : String} (h : IsName name) (names : List String) :
    (name.toList ++ belowText names).takeWhile (· ≠ '/') = name.toList := by
  rw [List.takeWhile_append_of_pos]
  · cases names with
    | nil => simp [belowText]
    | cons n names => simp [belowText]
  · intro c hc
    exact decide_eq_true fun hslash ↦ h.2 (hslash ▸ hc)

theorem belowText_inj {names names' : List String} (hnames : ∀ n ∈ names, IsName n)
    (hnames' : ∀ n ∈ names', IsName n) (h : belowText names = belowText names') :
    names = names' := by
  induction names generalizing names' with
  | nil =>
    cases names' with
    | nil => rfl
    | cons n' names' => cases h
  | cons n names ih =>
    cases names' with
    | nil => cases h
    | cons n' names' =>
      obtain ⟨hn, hnames⟩ := List.forall_mem_cons.mp hnames
      obtain ⟨hn', hnames'⟩ := List.forall_mem_cons.mp hnames'
      have htail : n.toList ++ belowText names = n'.toList ++ belowText names' :=
        List.tail_eq_of_cons_eq h
      have hfirst : n.toList = n'.toList := by
        rw [← takeWhile_name hn names, htail, takeWhile_name hn']
      rw [hfirst, List.append_cancel_left_eq] at htail
      rw [String.ext hfirst, ih hnames hnames' htail]

/-- Paths below a common one are known from their names. -/
theorem foldl_join_inj {root : Path} {name name' : String} {names names' : List String}
    (h : ∀ n ∈ name :: names, IsName n) (h' : ∀ n ∈ name' :: names', IsName n)
    (hpath : (name :: names).foldl Path.join root = (name' :: names').foldl Path.join root) :
    name :: names = name' :: names' := by
  have htext := congrArg (·.text.toList) hpath
  obtain ⟨hname, hnames⟩ := List.forall_mem_cons.mp h
  obtain ⟨hname', hnames'⟩ := List.forall_mem_cons.mp h'
  rw [toList_text_foldl_join hname hnames, toList_text_foldl_join hname' hnames',
    List.append_cancel_left_eq] at htext
  exact belowText_inj h h' (congrArg ('/' :: ·) htext)

/-! ## What is found -/

section Find

variable {corpus : Path} {rules : DiscoveryRules} {entries : List (String × Entry)}

theorem isTest_iff {path : Path} :
    isTest rules path = true ↔ path.extension? = some rules.extension.toList ∧
      (rules.excludeMarker = "" ∨ ¬ rules.excludeMarker.toList <:+: path.text.toList) := by
  rw [← Text.contains_iff, isTest]
  simp only [Bool.and_eq_true, decide_eq_true_eq, Bool.not_eq_true', Bool.and_eq_false_iff]
  rw [decide_eq_false_iff_not, not_not, Bool.not_eq_true]

/-- The tests below the search root: its files in order, less what the rules leave out. -/
def testsBelow (corpus : Path) (rules : DiscoveryRules) (entries : List (String × Entry)) :
    List TestCase :=
  testsOf corpus rules
    ((filesOf (.directory entries)).map fun f ↦ f.2.foldl Path.join (searchRoot corpus rules))

theorem filterMap_test?_visitsAt :
    (visitsAt (searchRoot corpus rules) (.directory entries)).filterMap (·.test? corpus rules)
      = testsBelow corpus rules entries := by
  rw [filterMap_test?, filterMap_file?_visitsAt, testsBelow]

theorem cases_find_none :
    (find corpus rules none (some entries)).cases = testsBelow corpus rules entries := by
  rw [find, toList_gather_none, filterMap_test?_visitsAt]
  rfl

theorem cases_find_some (n : UInt64) :
    (find corpus rules (some n) (some entries)).cases
      = (testsBelow corpus rules entries).take n.toNat := by
  rw [find, toList_gather_some, filterMap_test?_visitsAt]
  rfl

end Find

end Discovery

end Conformance
