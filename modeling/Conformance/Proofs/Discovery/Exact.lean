import Conformance.Machine.Host
import Conformance.Proofs.Discovery.Enumeration
/-!
# Exact discovery

The tests found below a search root are its regular files, each once and in the order of a depth-first
walk, less what the rules leave out. On a machine these are the files behind directories alone: a
symbolic link leads nowhere, whatever its target, and a directory whose path is too long to be opened
drops out with what lies beneath it.
-/

namespace Conformance

namespace Discovery

open Machine (FileNode FileTree)

/-! ## Trees of a machine -/

/-- A regular file below a directory of a machine, under a path of so many bytes: its position, and
the names on the way to it. No link is followed, and no directory entered under too long a path. -/
inductive HoldsFile : Nat → List (String × FileNode) → List Nat → List String → Prop
  | file {length place : Nat} {nodes : List (String × FileNode)} {name : String} {node : FileNode}
    (h : nodes[place]? = some (name, node)) (hnode : node.isRegular = true) :
    HoldsFile length nodes [place] [name]
  | directory {length place : Nat} {nodes sub : List (String × FileNode)} {name : String}
    {position : List Nat} {names : List String}
    (h : nodes[place]? = some (name, .directory sub))
    (hshort : length + 1 + name.utf8ByteSize < FileTree.longestPath)
    (hbelow : HoldsFile (length + 1 + name.utf8ByteSize) sub position names) :
    HoldsFile length nodes (place :: position) (name :: names)

theorem getElem?_entriesOf (length place : Nat) (nodes : List (String × FileNode)) :
    (Host.entriesOf length nodes)[place]?
      = nodes[place]?.map fun e ↦
        (e.1, Host.entryOf (length + 1 + e.1.utf8ByteSize) e.2) := by
  induction nodes generalizing place with
  | nil => rfl
  | cons e nodes ih =>
    rw [Host.entriesOf]
    cases place with
    | zero => rfl
    | succ place => exact ih place

theorem HoldsFile.reaches {length : Nat} {nodes : List (String × FileNode)} {position : List Nat}
    {names : List String} (h : HoldsFile length nodes position names) :
    Reaches (.directory (Host.entriesOf length nodes)) position names := by
  induction h with
  | @file length place nodes name node h hnode =>
    have hentry : Host.entryOf (length + 1 + name.utf8ByteSize) node = .file := by
      cases node with
      | file content isExecutable => rfl
      | program program => rfl
      | device device => cases hnode
      | link target => cases hnode
      | directory nodes => cases hnode
    refine .directory ?_ .file
    rw [getElem?_entriesOf, h, Option.map_some, hentry]
  | directory h hshort hbelow ih =>
    refine .directory ?_ ih
    rw [getElem?_entriesOf, h, Option.map_some, Host.entryOf, if_neg (Nat.not_le.mpr hshort)]

theorem holdsFile_of_reaches {length : Nat} {nodes : List (String × FileNode)}
    {position : List Nat} {names : List String}
    (h : Reaches (.directory (Host.entriesOf length nodes)) position names) :
    HoldsFile length nodes position names := by
  induction position generalizing length nodes names with
  | nil => cases h
  | cons place position ih =>
    cases h with
    | @directory _ _ name entry _ names h hbelow =>
      rw [getElem?_entriesOf, Option.map_eq_some_iff] at h
      obtain ⟨⟨name, node⟩, hnode, ⟨⟩⟩ := h
      cases node with
      | file content isExecutable =>
        cases hbelow
        exact .file hnode rfl
      | program program =>
        cases hbelow
        exact .file hnode rfl
      | device device => cases hbelow
      | link target => cases hbelow
      | directory sub =>
        dsimp only at hbelow
        rw [Host.entryOf] at hbelow
        split at hbelow
        · cases hbelow
        · rename_i hshort
          exact .directory hnode (Nat.not_le.mp hshort) (ih hbelow)

/-- What a machine lists of a directory leads to just the files that the directory holds. -/
theorem reaches_entriesOf_iff {length : Nat} {nodes : List (String × FileNode)}
    {position : List Nat} {names : List String} :
    Reaches (.directory (Host.entriesOf length nodes)) position names ↔
      HoldsFile length nodes position names :=
  ⟨holdsFile_of_reaches, HoldsFile.reaches⟩

/-- The bytes of a path, without a slash at its end. -/
def bytesOf (path : Path) : Nat :=
  if path.text.endsWith "/" then path.text.utf8ByteSize - 1 else path.text.utf8ByteSize

theorem listing_cases (tree : FileTree) (path : Path) :
    (Host.listing tree path = none ∧ tree.isDirectory path.text = false) ∨
      ∃ nodes, tree.node path.text = .ok (.directory nodes) ∧
        tree.isDirectory path.text = true ∧
        Host.listing tree path = some (Host.entriesOf (bytesOf path) nodes) := by
  rw [Host.listing, FileTree.isDirectory]
  cases tree.node path.text with
  | error e => exact .inl ⟨rfl, rfl⟩
  | ok node =>
    cases node with
    | directory nodes => exact .inr ⟨nodes, rfl, rfl, rfl⟩
    | file content isExecutable => exact .inl ⟨rfl, rfl⟩
    | program program => exact .inl ⟨rfl, rfl⟩
    | device device => exact .inl ⟨rfl, rfl⟩
    | link target => exact .inl ⟨rfl, rfl⟩

/-! ## What is found -/

/-- The files of a search root, each once and in the order of their positions, with the names on the
way to them. -/
structure Enumerates (entries : List (String × Entry)) (files : List (List Nat × List String)) :
    Prop where
  inOrder : files.Pairwise (·.1 < ·.1)
  mem_iff (position : List Nat) (names : List String) :
    (position, names) ∈ files ↔ Reaches (.directory entries) position names

theorem enumerates_filesOf (entries : List (String × Entry)) :
    Enumerates entries (filesOf (.directory entries)) where
  inOrder := pairwise_filesOf _
  mem_iff _ _ := mem_filesOf

/-- Where names differ from each other, no path is listed twice. -/
theorem Enumerates.nodup_paths {entries : List (String × Entry)}
    {files : List (List Nat × List String)} (h : Enumerates entries files)
    (hentries : WellNamed (.directory entries)) (root : Path) :
    (files.map fun f ↦ f.2.foldl Path.join root).Nodup := by
  rw [List.Nodup, List.pairwise_map]
  refine h.inOrder.imp_of_mem ?_
  rintro ⟨position, names⟩ ⟨position', names'⟩ hmem hmem' hlt hpath
  rw [h.mem_iff] at hmem hmem'
  have hnames : names = names' := by
    cases hmem with
    | directory hget hbelow =>
      cases hmem' with
      | directory hget' hbelow' =>
        exact foldl_join_inj ((Reaches.directory hget hbelow).isName hentries)
          ((Reaches.directory hget' hbelow').isName hentries) hpath
  subst hnames
  rw [hmem.position_eq hmem' hentries] at hlt
  exact lt_irrefl _ hlt

/-- **Exact discovery.** Without a search root nothing is found, and only then a notice is given. In a
search root the tests are its files in walk order, each once, less those that the extension or the
exclude marker leaves out; a limit keeps the first of them. Where names differ from each other no path
is found twice. On a machine the search root is absent exactly if it is no directory, and its files
are the regular ones behind directories that can be opened, without any link on the way. -/
theorem find_exact (corpus : Path) (rules : DiscoveryRules) :
    (∀ limit, find corpus rules limit none
      = ⟨[], some (.missingRoot (searchRoot corpus rules))⟩) ∧
    (∀ limit entries, (find corpus rules limit (some entries)).notice = none) ∧
    (∀ path, isTest rules path = true ↔ path.extension? = some rules.extension.toList ∧
      (rules.excludeMarker = "" ∨ ¬ rules.excludeMarker.toList <:+: path.text.toList)) ∧
    (∀ entries, ∃ files tests, Enumerates entries files ∧
      tests = ((files.map fun f ↦ f.2.foldl Path.join (searchRoot corpus rules)).filter
        (isTest rules)).map (testAt corpus) ∧
      (find corpus rules none (some entries)).cases = tests ∧
      (∀ n, (find corpus rules (some n) (some entries)).cases
        = tests.take (min n.toNat tests.length)) ∧
      (WellNamed (.directory entries) → (tests.map (·.path)).Nodup)) ∧
    ∀ tree : FileTree,
      (Host.listing tree (searchRoot corpus rules) = none ↔
        tree.isDirectory (searchRoot corpus rules).text = false) ∧
      ∀ entries, Host.listing tree (searchRoot corpus rules) = some entries →
        ∃ nodes, tree.node (searchRoot corpus rules).text = .ok (.directory nodes) ∧
          ∀ position names, Reaches (.directory entries) position names ↔
            HoldsFile (bytesOf (searchRoot corpus rules)) nodes position names := by
  refine ⟨fun limit ↦ rfl, fun limit entries ↦ rfl, fun path ↦ isTest_iff, ?_, ?_⟩
  · intro entries
    have hfiles := enumerates_filesOf entries
    refine ⟨filesOf (.directory entries), testsBelow corpus rules entries, hfiles, rfl,
      cases_find_none, ?_, ?_⟩
    · intro n
      rw [cases_find_some, List.take_eq_take_min]
    · intro hentries
      have hpath : (fun t : TestCase ↦ t.path) ∘ testAt corpus = id := rfl
      rw [testsBelow, testsOf, List.map_map, hpath, List.map_id]
      exact (hfiles.nodup_paths hentries _).filter _
  · intro tree
    obtain ⟨hlisting, hdirectory⟩ | ⟨nodes, hnode, hdirectory, hlisting⟩ :=
      listing_cases tree (searchRoot corpus rules)
    · rw [hlisting]
      refine ⟨iff_of_true rfl hdirectory, ?_⟩
      intro entries h
      cases h
    · rw [hlisting, hdirectory]
      refine ⟨iff_of_false (Option.some_ne_none _) Bool.noConfusion, ?_⟩
      rintro _ ⟨⟩
      exact ⟨nodes, hnode, fun _ _ ↦ reaches_entriesOf_iff⟩

/-- A directory that is named like a test is entered, a link and a marked file are passed over, and
what cannot be read takes nothing else with it. -/
example :
    (find ⟨"corpus"⟩ ⟨"test", "js", "_FIX"⟩ none (some [
      ("a.js", .directory [("b.js", .file), ("link.js", .other)]), ("c_FIX.js", .file),
      ("d.js", .unreadable), ("e.js", .file)])).cases.map (·.id)
      = ["test/a.js/b.js", "test/e.js"] := by
  decide +kernel

end Discovery

end Conformance
