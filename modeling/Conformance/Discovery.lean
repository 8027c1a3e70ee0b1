import Conformance.Path
import Conformance.Text.Search
/-!
# Finding the tests of a corpus

The tests of a corpus are the regular files below its test directory that carry the configured
extension and whose path does not contain the exclude marker. They are found by a depth-first walk
that keeps the order in which each directory lists its entries. Symbolic links below the search root
are neither followed nor counted, and a directory that cannot be read drops out with everything
beneath it.

A test is known by its path relative to the corpus, written with `/` between the components.
-/

namespace Conformance

/-- What a walk meets at one name. -/
inductive Entry where
  /-- A regular file. -/
  | file
  /-- A symbolic link, a device, or anything else that is neither file nor directory. -/
  | other
  /-- A directory that cannot be read. -/
  | unreadable
  /-- A directory and what it lists, in its own order. -/
  | directory (entries : List (String × Entry))

/-- Which files below a corpus count as tests. -/
structure DiscoveryRules where
  /-- The directory below the corpus that holds the tests. -/
  testSubdir : String
  extension : String
  /-- Paths that contain this text are support files; the empty text marks none. -/
  excludeMarker : String
  deriving DecidableEq, Repr

/-- A test: its name in every report, and the path handed to the target. -/
structure TestCase where
  id : String
  path : Path
  deriving DecidableEq, Repr

/-- What the caller should know although discovery succeeded. -/
inductive DiscoveryNotice where
  /-- The test directory is not there. -/
  | missingRoot (path : Path)
  deriving DecidableEq, Repr

def DiscoveryNotice.message : DiscoveryNotice → String
  | .missingRoot path => "Test directory not found: " ++ path.text

/-- The tests found, and a notice if there is one. -/
structure Discovery where
  cases : List TestCase
  notice : Option DiscoveryNotice
  deriving DecidableEq, Repr

namespace Discovery

def isTest (rules : DiscoveryRules) (path : Path) : Bool :=
  let marked := rules.excludeMarker ≠ "" && Text.contains path.text rules.excludeMarker
  path.extension? = some rules.extension.toList && !marked

def testAt (corpus path : Path) : TestCase :=
  ⟨Path.renderComponents (path.relativeTo corpus), path⟩

/-- The directory that a walk starts from. -/
def searchRoot (corpus : Path) (rules : DiscoveryRules) : Path :=
  corpus.join rules.testSubdir

/-! ## Walking -/

/-- What a walk yields, one after the other. -/
inductive Visit where
  | file (path : Path)
  | directory (path : Path)
  /-- Anything else that is there. -/
  | other (path : Path)
  /-- What is at a path could not be read. -/
  | failed (path : Path)
  deriving DecidableEq, Repr

mutual

/-- The walk from an entry met at `path`. A directory is yielded before what it holds, and again as
a failure if it cannot be read. -/
def visitsAt (path : Path) : Entry → List Visit
  | .file => [.file path]
  | .other => [.other path]
  | .unreadable => [.directory path, .failed path]
  | .directory entries => .directory path :: visitsBelow path entries

/-- The walk through the entries of a directory, in its own order. -/
def visitsBelow (path : Path) : List (String × Entry) → List Visit
  | [] => []
  | (name, entry) :: rest => visitsAt (path.join name) entry ++ visitsBelow path rest

end

/-- The tests found after one more visit. Failures, and whatever is no test, are passed over. -/
def takeUp (corpus : Path) (rules : DiscoveryRules) (found : Array TestCase) :
    Visit → Array TestCase
  | .file path => if isTest rules path then found.push (testAt corpus path) else found
  | .directory _ | .other _ | .failed _ => found

/-- Takes up the tests among the visits of a walk, until there are as many as the limit allows. -/
def gather (corpus : Path) (rules : DiscoveryRules) (limit : Option UInt64) :
    Array TestCase → List Visit → Array TestCase
  | found, [] => found
  | found, visit :: visits =>
    if limit.any fun n ↦ n.toNat ≤ found.size then found
    else gather corpus rules limit (takeUp corpus rules found visit) visits

/-- The tests of a corpus, at most `limit` of them. `listing` is what the search root lists, absent
if it is not a directory. -/
def find (corpus : Path) (rules : DiscoveryRules) (limit : Option UInt64)
    (listing : Option (List (String × Entry))) : Discovery :=
  let root := searchRoot corpus rules
  match listing with
  | none => ⟨[], some (.missingRoot root)⟩
  | some entries =>
    ⟨(gather corpus rules limit #[] (visitsAt root (.directory entries))).toList, none⟩

end Discovery

end Conformance
