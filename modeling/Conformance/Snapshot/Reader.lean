import Conformance.Json.Skip
import Conformance.Snapshot.Problem
import Conformance.Tally
/-!
# Reading a snapshot

A snapshot is one JSON value: an object with the five members of a tally, or a list of just those
five values in order. Members that belong to no field are skipped, whatever they hold. A failure
sample has the same two forms with its two fields. Every field is needed, none may occur twice, and
what is wrong first, read from the left, is what is reported.
-/

namespace Conformance.Snapshot

open Json (Rest)

/-- Why reading stops: the text is not JSON, or it is misshapen, with what is left unread. -/
inductive Stop where
  | json (failure : Json.Failure)
  | misshapen (problem : Problem) (unread : List Char)
  deriving DecidableEq, Repr

/-- Reading a part of a snapshot from the front of a text. -/
abbrev Reader (α : Type) := (cs : List Char) → Except Stop (α × Rest cs)

/-- A piece of JSON read without expectations. -/
def plainly {α : Type} (r : Except Json.Failure α) : Except Stop α := r.mapError .json

/-- Reads behind leading white space, where some character must follow. -/
def behindSpace {α : Type} {cs : List Char}
    (k : (c : Char) → (r : List Char) → Except Stop (α × Rest (c :: r))) :
    Except Stop (α × Rest cs) :=
  match h : Json.skipSpace cs with
  | [] => .error (.json .truncated)
  | c :: r => do
    let (a, rest) ← k c r
    return (a, Rest.ofSkipSpace ⟨rest.1, by rw [h]; exact rest.2⟩)

/-- The problem with a value that is not what was expected. Scalars are read to their end, while
containers are not entered. -/
def unexpected {α : Type} (expected : Expected) (c : Char) (r : List Char) : Except Stop α :=
  let stop {β : Type} (found : Found) (unread : List Char) : Except Stop β :=
    .error (.misshapen (.wrongType found expected) unread)
  if c = 'n' then do
    stop .null (← plainly (Json.word ['u', 'l', 'l'] r)).1
  else if c = 't' then do
    stop (.boolean true) (← plainly (Json.word ['r', 'u', 'e'] r)).1
  else if c = 'f' then do
    stop (.boolean false) (← plainly (Json.word ['a', 'l', 's', 'e'] r)).1
  else if c = '-' ∨ Json.isDigit c then do
    let (n, rest) ← plainly (Json.number (c :: r))
    match n with
    | .natural n => stop (.integer n) rest.1
    | .negative n => stop (.integer (-n)) rest.1
    | .real isNegative x => stop (.real isNegative x) rest.1
  else if c = '"' then do
    let (s, rest) ← plainly (Json.stringBody r)
    stop (.text s) rest.1
  else if c = '[' then stop .list (c :: r)
  else if c = '{' then stop .object (c :: r)
  else .error (.json .malformed)

/-! ## Scalars -/

/-- A count: a non-negative integer of 64 bits. -/
def readCount : Reader UInt64 := fun _ ↦ behindSpace fun c r ↦
  if c = '-' ∨ Json.isDigit c then do
    let (n, rest) ← plainly (Json.number (c :: r))
    match n with
    | .natural n => .ok (.ofNat n, rest)
    | .negative n => .error (.misshapen (.negativeCount n) rest.1)
    | .real isNegative x =>
      .error (.misshapen (.wrongType (.real isNegative x) .count) rest.1)
  else unexpected .count c r

def readText : Reader String := fun _ ↦ behindSpace fun c r ↦
  if c = '"' then do
    let (s, rest) ← plainly (Json.stringBody r)
    return (String.ofList s, rest.cons c)
  else unexpected .text c r

/-! ## Lists -/

/-- Whether a list goes on with another element; its closing bracket is consumed. -/
inductive ListNext (cs : List Char) where
  /-- An element follows in the given text. -/
  | element (rest : Json.Tail cs)
  | closed (rest : Rest cs)

/-- Looks for the next element of a list, the `first` or a later one. -/
def nextElement (first : Bool) (cs : List Char) : Except Stop (ListNext cs) :=
  match h : Json.skipSpace cs with
  | [] => .error (.json .truncated)
  | c :: r =>
    have hr := Json.length_lt_of_skipSpace h
    if c = ']' then .ok (.closed ⟨r, hr⟩)
    else if first then .ok (.element (.whole cs))
    else if c = ',' then
      match Json.skipSpace r with
      | [] => .error (.json .truncated)
      | d :: _ =>
        if d = ']' then .error (.json .malformed)
        else .ok (.element (Json.Rest.toTail ⟨r, hr⟩))
    else .error (.json .malformed)

/-- The next element of a list of fields, the one at the given index. -/
def readField {α : Type} (expected : Expected) (index : Nat) (read : Reader α) : Reader α :=
  fun cs ↦ do
    match ← nextElement (index = 0) cs with
    | .closed rest => .error (.misshapen (.wrongLength index expected) rest.1)
    | .element rest =>
      let (a, rest') ← read rest.1
      return (a, ⟨rest'.1, Nat.lt_of_lt_of_le rest'.2 rest.2⟩)

/-- The end of a list of fields. -/
def closeFields (cs : List Char) : Except Stop (Rest cs) :=
  match h : Json.skipSpace cs with
  | [] => .error (.json .truncated)
  | c :: r =>
    if c = ']' then
      .ok ⟨r, Json.length_lt_of_skipSpace h⟩
    else .error (.json .malformed)

/-- The elements of a list, read from behind its opening bracket or behind an element. -/
def readElements {α : Type} (read : Reader α) (first : Bool) : Reader (List α) := fun cs ↦ do
  match ← nextElement first cs with
  | .closed rest => return ([], rest)
  | .element rest =>
    let (a, rest') ← read rest.1
    let (as, rest'') ← readElements read false rest'.1
    return (a :: as, ⟨rest''.1, by have := rest.2; have := rest'.2; have := rest''.2; omega⟩)
termination_by cs => cs.length
decreasing_by exact Nat.lt_of_lt_of_le rest'.2 rest.2

def readList {α : Type} (read : Reader α) : Reader (List α) := fun _ ↦ behindSpace fun c r ↦
  if c = '[' then (readElements read true r).map fun (as, rest) ↦ (as, rest.cons c)
  else unexpected .list c r

/-! ## Objects -/

/-- How the members of an object fill in a draft of a record: which field a key names, whether the
draft has it already, and how its value is read. -/
structure Members (φ δ : Type) where
  field? : List Char → Option φ
  name : φ → String
  isSet : δ → φ → Bool
  read : δ → φ → Reader δ

/-- Whether an object goes on with another member; its closing brace is consumed. -/
inductive ObjectNext (cs : List Char) where
  /-- A member with the given key follows; the rest stands behind the key. -/
  | member (key : List Char) (rest : Rest cs)
  | closed (rest : Rest cs)

/-- A key, read from behind its opening quote. -/
def readKey {cs : List Char} (r : List Char) (h : r.length < cs.length) :
    Except Stop (ObjectNext cs) := do
  let (key, rest) ← plainly (Json.stringBody r)
  return .member key (rest.within h)

/-- Looks for the next member of an object, the `first` or a later one. -/
def nextMember (first : Bool) (cs : List Char) : Except Stop (ObjectNext cs) :=
  match h : Json.skipSpace cs with
  | [] => .error (.json .truncated)
  | c :: r =>
    have hr := Json.length_lt_of_skipSpace h
    if c = '}' then .ok (.closed ⟨r, hr⟩)
    else if first then
      if c = '"' then readKey r hr else .error (.json .malformed)
    else if c = ',' then
      match h' : Json.skipSpace r with
      | [] => .error (.json .truncated)
      | d :: r' =>
        have hr' := Nat.lt_trans (Json.length_lt_of_skipSpace h') hr
        if d = '"' then readKey r' hr' else .error (.json .malformed)
    else .error (.json .malformed)

def colon (cs : List Char) : Except Stop (Rest cs) :=
  match h : Json.skipSpace cs with
  | [] => .error (.json .truncated)
  | c :: r =>
    if c = ':' then
      .ok ⟨r, Json.length_lt_of_skipSpace h⟩
    else .error (.json .malformed)

/-- What is left unread once a record has been given up behind a key: the white space that follows,
and the closing brace if it comes next. -/
def giveUp (cs : List Char) : List Char :=
  match Json.skipSpace cs with
  | '}' :: r => r
  | r => r

/-- The value of a member, read from behind its key into a draft. -/
def readMember {φ δ : Type} (m : Members φ δ) (draft : δ) (key : List Char) : Reader δ :=
  fun cs ↦
    match m.field? key with
    | some field =>
      if m.isSet draft field then
        .error (.misshapen (.duplicate (m.name field)) (giveUp cs))
      else do
        let rest ← colon cs
        let (draft', rest') ← m.read draft field rest.1
        return (draft', rest.trans rest')
    | none => do
      let rest ← colon cs
      let rest' ← plainly (Json.skipValue rest.1)
      return (draft, rest.trans rest')

/-- The members of an object, read from behind its opening brace or behind a member. -/
def readMembers {φ δ : Type} (m : Members φ δ) (draft : δ) (first : Bool) : Reader δ := fun cs ↦ do
  match ← nextMember first cs with
  | .closed rest => return (draft, rest)
  | .member key rest =>
    let (draft', rest') ← readMember m draft key rest.1
    let (result, rest'') ← readMembers m draft' false rest'.1
    return (result, (rest.trans rest').trans rest'')
termination_by cs => cs.length
decreasing_by exact Nat.lt_trans rest'.2 rest.2

/-- A needed field of a finished draft. -/
def need {α : Type} (field : String) (unread : List Char) : Option α → Except Stop α
  | some a => .ok a
  | none => .error (.misshapen (.missing field) unread)

/-! ## Failure samples -/

inductive SampleField where
  | test
  | error
  deriving DecidableEq, Repr

def SampleField.name : SampleField → String
  | .test => "test"
  | .error => "error"

structure SampleDraft where
  test : Option String := none
  error : Option String := none

/-- The members of a failure sample. -/
def sampleMembers : Members SampleField SampleDraft where
  field? key := [.test, .error].find? fun f ↦ f.name.toList = key
  name := SampleField.name
  isSet
    | draft, .test => draft.test.isSome
    | draft, .error => draft.error.isSome
  read
    | draft, .test => fun cs ↦
        (readText cs).map fun (s, rest) ↦ ({ draft with test := some s }, rest)
    | draft, .error => fun cs ↦
        (readText cs).map fun (s, rest) ↦ ({ draft with error := some s }, rest)

/-- A failure sample as a list of its two fields, from behind the bracket. -/
def readSampleFields : Reader FailureSample := fun cs ↦ do
  let (test, r₁) ← readField .sample 0 readText cs
  let (error, r₂) ← readField .sample 1 readText r₁.1
  let r₃ ← closeFields r₂.1
  return (⟨test, error⟩, (r₁.trans r₂).trans r₃)

/-- A failure sample as an object, from behind the brace. -/
def readSampleMembers : Reader FailureSample := fun cs ↦ do
  let (draft, rest) ← readMembers sampleMembers {} true cs
  let test ← need "test" rest.1 draft.test
  let error ← need "error" rest.1 draft.error
  return (⟨test, error⟩, rest)

def readSample : Reader FailureSample := fun _ ↦ behindSpace fun c r ↦
  if c = '[' then (readSampleFields r).map fun (s, rest) ↦ (s, rest.cons c)
  else if c = '{' then (readSampleMembers r).map fun (s, rest) ↦ (s, rest.cons c)
  else unexpected .sample c r

/-! ## Tallies -/

/-- The fields of a tally that a snapshot holds. -/
inductive TallyField where
  | passed
  | failed
  | skipped
  | total
  | failures
  deriving DecidableEq, Repr

def TallyField.name : TallyField → String
  | .passed => "passed"
  | .failed => "failed"
  | .skipped => "skipped"
  | .total => "total"
  | .failures => "failures"

structure TallyDraft where
  passed : Option UInt64 := none
  failed : Option UInt64 := none
  skipped : Option UInt64 := none
  total : Option UInt64 := none
  failures : Option (List FailureSample) := none

def tallyMembers : Members TallyField TallyDraft where
  field? key :=
    [.passed, .failed, .skipped, .total, .failures].find? fun f ↦ f.name.toList = key
  name := TallyField.name
  isSet
    | draft, .passed => draft.passed.isSome
    | draft, .failed => draft.failed.isSome
    | draft, .skipped => draft.skipped.isSome
    | draft, .total => draft.total.isSome
    | draft, .failures => draft.failures.isSome
  read
    | draft, .passed => fun cs ↦
        (readCount cs).map fun (n, rest) ↦ ({ draft with passed := some n }, rest)
    | draft, .failed => fun cs ↦
        (readCount cs).map fun (n, rest) ↦ ({ draft with failed := some n }, rest)
    | draft, .skipped => fun cs ↦
        (readCount cs).map fun (n, rest) ↦ ({ draft with skipped := some n }, rest)
    | draft, .total => fun cs ↦
        (readCount cs).map fun (n, rest) ↦ ({ draft with total := some n }, rest)
    | draft, .failures => fun cs ↦
        (readList readSample cs).map fun (fs, rest) ↦ ({ draft with failures := some fs }, rest)

/-- The tally with the given counts and samples. A tally that was read has the usual limit. -/
def tallyOf (passed failed skipped total : UInt64) (failures : List FailureSample) : Tally :=
  ⟨passed, failed, skipped, total, failures.toArray, defaultSampleLimit⟩

/-- A tally as a list of its five fields, from behind the bracket. -/
def readTallyFields : Reader Tally := fun cs ↦ do
  let (passed, r₁) ← readField .tally 0 readCount cs
  let (failed, r₂) ← readField .tally 1 readCount r₁.1
  let (skipped, r₃) ← readField .tally 2 readCount r₂.1
  let (total, r₄) ← readField .tally 3 readCount r₃.1
  let (failures, r₅) ← readField .tally 4 (readList readSample) r₄.1
  let r₆ ← closeFields r₅.1
  return (tallyOf passed failed skipped total failures,
    ((((r₁.trans r₂).trans r₃).trans r₄).trans r₅).trans r₆)

/-- A tally as an object, from behind the brace. -/
def readTallyMembers : Reader Tally := fun cs ↦ do
  let (draft, rest) ← readMembers tallyMembers {} true cs
  let passed ← need "passed" rest.1 draft.passed
  let failed ← need "failed" rest.1 draft.failed
  let skipped ← need "skipped" rest.1 draft.skipped
  let total ← need "total" rest.1 draft.total
  let failures ← need "failures" rest.1 draft.failures
  return (tallyOf passed failed skipped total failures, rest)

def readTally : Reader Tally := fun _ ↦ behindSpace fun c r ↦
  if c = '[' then (readTallyFields r).map fun (t, rest) ↦ (t, rest.cons c)
  else if c = '{' then (readTallyMembers r).map fun (t, rest) ↦ (t, rest.cons c)
  else unexpected .tally c r

/-- A whole snapshot: a tally with nothing but white space behind it. -/
def readAll (cs : List Char) : Except Stop Tally := do
  let (t, rest) ← readTally cs
  if Json.skipSpace rest.1 = [] then .ok t else .error (.json .malformed)

/-- The failure that a stop in a given text amounts to. -/
def Stop.failure (cs : List Char) : Stop → Failure
  | .json .truncated => .truncated
  | .json .malformed => .malformed
  | .misshapen problem unread =>
    let (line, column) := position (cs.take (cs.length - unread.length))
    .misshapen problem line column

/-- The tally that a snapshot holds. -/
def read (text : String) : Except Failure Tally :=
  (readAll text.toList).mapError (Stop.failure text.toList)

end Conformance.Snapshot
