import Conformance.Path
/-!
# The command line

Arguments are read from left to right. An option takes its value from behind an equals sign or from
the next argument, unless that begins with a dash; a value that was given separately is examined
only when the next known option is met, or at the end. The first error wins, and so does a request
for help or for the version. That the target is missing is found out last.
-/

namespace Conformance.CommandLine

/-- What the command line asks for. -/
structure Arguments where
  /-- The executable under test. -/
  target : Path
  /-- The directory of the corpus. -/
  corpusDir : Path
  /-- Run at most this many tests. -/
  maxTests : Option UInt64
  /-- Where the results snapshot goes. -/
  output : Path
  /-- Where the review summary goes, if it is wanted. -/
  prComment : Option Path
  /-- The configuration file. -/
  config : Option Path
  /-- The time limit of each test, in seconds. -/
  timeout : Option UInt64
  /-- Never clone the corpus. -/
  noFetch : Bool
  /-- Never use colours. -/
  noColour : Bool
  deriving DecidableEq, Repr

/-- What is wrong with a command line. -/
inductive UsageError where
  /-- A needed option is missing. -/
  | missingArgument
  /-- An option has no value, or an empty path. -/
  | noValue
  /-- An option is given twice. -/
  | repeated
  /-- A word that is no option. -/
  | unknown
  /-- A value for an option that takes none. -/
  | tooManyValues
  /-- A value that is not a number in range. -/
  | badNumber
  deriving DecidableEq, Repr

/-- Why a command line gives no arguments. -/
inductive Stop where
  | usage (error : UsageError)
  | help
  | version
  deriving DecidableEq, Repr

/-- The exit code of a stop: two for an error, zero for a request that was answered. -/
def Stop.exitCode : Stop → Int
  | .usage _ => 2
  | .help | .version => 0

def versionText : String := "conformance-harness 0.1.0\n"

def helpText : String := String.join <| List.map (· ++ "\n")
  ["Run a conformance corpus against an executable and report pass/fail statistics.",
   "",
   "Usage: conformance-harness [OPTIONS] --target <PATH>",
   "",
   "Options:",
   "      --target <PATH>      Path to the executable under test [alias: --swiftees]",
   "      --corpus-dir <DIR>   Corpus checkout directory. Cloned if absent unless --no-fetch is set " ++
      "[default: test262] [alias: --test262-dir]",
   "      --max-tests <N>      Run at most this many tests",
   "      --output <PATH>      Where to write the JSON results snapshot " ++
      "[default: test262-results.json]",
   "      --pr-comment <PATH>  Where to write the markdown review summary",
   "      --config <PATH>      YAML configuration file",
   "      --timeout <SECS>     Per-test timeout in seconds",
   "      --no-fetch           Never clone the corpus; a missing directory means zero tests",
   "      --no-color           Disable coloured console output",
   "  -h, --help               Print help",
   "  -V, --version            Print version"]

/-- What a stop prints to standard output. -/
def Stop.text : Stop → String
  | .usage _ => ""
  | .help => helpText
  | .version => versionText

/-! ## Options -/

/-- The options that take a value. -/
inductive Setting where
  | target
  | corpusDir
  | maxTests
  | output
  | prComment
  | config
  | timeout
  deriving DecidableEq, Repr

/-- The options that take none. -/
inductive Switch where
  | noFetch
  | noColour
  | help
  | version
  deriving DecidableEq, Repr

def settings : List (String × Setting) :=
  [("target", .target), ("swiftees", .target), ("corpus-dir", .corpusDir),
    ("test262-dir", .corpusDir), ("max-tests", .maxTests), ("output", .output),
    ("pr-comment", .prComment), ("config", .config), ("timeout", .timeout)]

def switches : List (String × Switch) :=
  [("no-fetch", .noFetch), ("no-color", .noColour), ("help", .help), ("version", .version)]

/-- The switches by letter. -/
def letters : List (Char × Switch) := [('h', .help), ('V', .version)]

/-- The options met so far. -/
structure Draft where
  target : Option Path := none
  corpusDir : Option Path := none
  maxTests : Option UInt64 := none
  output : Option Path := none
  prComment : Option Path := none
  config : Option Path := none
  timeout : Option UInt64 := none
  noFetch : Bool := false
  noColour : Bool := false

/-- An option still to be examined, with its value if one followed. -/
abbrev Pending := Setting × Option String

/-- A 64-bit number: decimal digits, after one plus sign at most. -/
def number? (s : String) : Option UInt64 :=
  let digits := match s.toList with
    | '+' :: ds => ds
    | ds => ds
  if digits ≠ [] ∧ digits.all Char.isDigit then
    let n := digits.foldl (fun n c ↦ n * 10 + (c.toNat - 48)) 0
    if n < UInt64.size then some (.ofNat n) else none
  else none

/-- A path that was given as a value. -/
def path (s : String) : Except Stop Path :=
  if s = "" then .error (.usage .noValue) else .ok ⟨s⟩

/-- A number of at least `least` that was given as a value. -/
def number (least : UInt64) (s : String) : Except Stop UInt64 :=
  match number? s with
  | some n => if least ≤ n then .ok n else .error (.usage .badNumber)
  | none => .error (.usage .badNumber)

/-- A value put where none may have been put before. -/
def once {α : Type} (old : Option α) (value : Except Stop α) : Except Stop (Option α) :=
  if old.isSome then .error (.usage .repeated) else value.map some

/-- The draft with the value of one more option. -/
def Draft.set (d : Draft) (value : String) : Setting → Except Stop Draft
  | .target => (once d.target (path value)).map fun v ↦ { d with target := v }
  | .corpusDir => (once d.corpusDir (path value)).map fun v ↦ { d with corpusDir := v }
  | .maxTests => (once d.maxTests (number 0 value)).map fun v ↦ { d with maxTests := v }
  | .output => (once d.output (path value)).map fun v ↦ { d with output := v }
  | .prComment => (once d.prComment (path value)).map fun v ↦ { d with prComment := v }
  | .config => (once d.config (path value)).map fun v ↦ { d with config := v }
  | .timeout => (once d.timeout (number 1 value)).map fun v ↦ { d with timeout := v }

/-- The draft once a pending option is examined. -/
def Draft.settle (d : Draft) : Option Pending → Except Stop Draft
  | none => .ok d
  | some (_, none) => .error (.usage .noValue)
  | some (setting, some value) => d.set value setting

def Draft.switch (d : Draft) : Switch → Except Stop Draft
  | .noFetch =>
    if d.noFetch then .error (.usage .repeated) else .ok { d with noFetch := true }
  | .noColour =>
    if d.noColour then .error (.usage .repeated) else .ok { d with noColour := true }
  | .help => .error .help
  | .version => .error .version

/-! ## Arguments -/

/-- What one argument looks like. -/
inductive Word where
  /-- Two dashes alone: no options follow. -/
  | separator
  /-- Two dashes, a name, and a value if there is an equals sign. -/
  | long (name : String) (value : Option String)
  /-- One dash and letters. -/
  | short (first : Char)
  /-- Anything else. -/
  | plain (text : String)
  deriving DecidableEq, Repr

/-- The look of an argument. -/
def Word.ofText (s : String) : Word :=
  match s.toList with
  | ['-', '-'] => .separator
  | '-' :: '-' :: cs =>
    let name := cs.takeWhile (· ≠ '=')
    .long (String.ofList name)
      (if name.length < cs.length then some (String.ofList (cs.drop (name.length + 1))) else none)
  | '-' :: c :: _ => .short c
  | _ => .plain s

def readFrom (d : Draft) (pending : Option Pending) : List String → Except Stop Draft
  | [] => d.settle pending
  | arg :: args =>
    match Word.ofText arg with
    | .separator => if args = [] then d.settle pending else .error (.usage .unknown)
    | .long name value =>
      match settings.lookup name, switches.lookup name, value with
      | some setting, _, some value => do
        readFrom (← (← d.settle pending).set value setting) none args
      | some setting, _, none => do readFrom (← d.settle pending) (some (setting, none)) args
      | none, some _, some _ => .error (.usage .tooManyValues)
      | none, some switch, none => do
        readFrom (← (← d.settle pending).switch switch) none args
      | none, none, _ => .error (.usage .unknown)
    | .short c =>
      match letters.lookup c with
      | some switch => do readFrom (← (← d.settle pending).switch switch) none args
      | none => .error (.usage .unknown)
    | .plain text =>
      match pending with
      | some (setting, none) => readFrom d (some (setting, some text)) args
      | _ => .error (.usage .unknown)

def Draft.finish (d : Draft) : Except Stop Arguments :=
  match d.target with
  | none => .error (.usage .missingArgument)
  | some target =>
    .ok {
      target
      corpusDir := d.corpusDir.getD ⟨"test262"⟩
      maxTests := d.maxTests
      output := d.output.getD ⟨"test262-results.json"⟩
      prComment := d.prComment
      config := d.config
      timeout := d.timeout
      noFetch := d.noFetch
      noColour := d.noColour }

/-- Reads a command line, without the program's name. -/
def read (args : List String) : Except Stop Arguments := do
  (← readFrom {} none args).finish

end Conformance.CommandLine
