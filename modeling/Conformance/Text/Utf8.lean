/-!
# UTF-8

Bytes to characters, one byte at a time. A scan is either between characters or partway through a
multi-byte sequence, and partway through it knows how many continuation bytes are missing and the
range the next one must lie in. The range is where overlong forms, surrogates and code points past
`U+10FFFF` are refused: it is narrower than `80..BF` only for the byte after `E0`, `ED`, `F0` and
`F4`.

A byte that cannot continue the sequence ends it: the bytes consumed so far are one maximal invalid
part and the byte is looked at afresh. So a scan gives one item per character or maximal invalid
part, in order. The lossy reading replaces every invalid part by `U+FFFD`; the strict reading
accepts only scans without one.
-/

namespace Conformance.Utf8

/-- Where a scan stands between two bytes. -/
inductive State where
  /-- Between characters. -/
  | start
  /-- Inside a sequence: `missing + 1` continuation bytes are still due, the next of them within
  `low..high`, and `value` holds the payload bits read so far. -/
  | partway (missing : Nat) (low high : UInt8) (value : Nat)
  deriving DecidableEq, Repr

/-- What a scan finds: a character, or a maximal invalid part. -/
abbrev Item := Option Char

/-- Reads a byte between characters. -/
def lead (b : UInt8) : List Item × State :=
  if b ≤ 0x7F then ([some (Char.ofNat b.toNat)], .start)
  else if b < 0xC2 then ([none], .start)
  else if b ≤ 0xDF then ([], .partway 0 0x80 0xBF (b.toNat % 32))
  else if b = 0xE0 then ([], .partway 1 0xA0 0xBF 0)
  else if b = 0xED then ([], .partway 1 0x80 0x9F 13)
  else if b ≤ 0xEF then ([], .partway 1 0x80 0xBF (b.toNat % 16))
  else if b = 0xF0 then ([], .partway 2 0x90 0xBF 0)
  else if b ≤ 0xF3 then ([], .partway 2 0x80 0xBF (b.toNat % 8))
  else if b = 0xF4 then ([], .partway 2 0x80 0x8F 4)
  else ([none], .start)

/-- Reads one byte. -/
def step : State → UInt8 → List Item × State
  | .start, b => lead b
  | .partway missing low high value, b =>
    if low ≤ b ∧ b ≤ high then
      let value := value * 64 + b.toNat % 64
      match missing with
      | 0 => ([some (Char.ofNat value)], .start)
      | m + 1 => ([], .partway m 0x80 0xBF value)
    else
      let (items, state) := lead b
      (none :: items, state)

/-- What the end of the input adds: a sequence cut short is one invalid part. -/
def finish : State → List Item
  | .start => []
  | .partway .. => [none]

/-- The items of a byte string read from a given state. -/
def scanFrom : State → List UInt8 → List Item
  | s, [] => finish s
  | s, b :: bs => (step s b).1 ++ scanFrom (step s b).2 bs

def scan (bytes : List UInt8) : List Item :=
  scanFrom .start bytes

/-- The replacement character. -/
def replacement : Char := '\uFFFD'

/-- Lossy reading: every maximal invalid part becomes one `U+FFFD`. -/
def decodeLossy (bytes : List UInt8) : List Char :=
  (scan bytes).map (·.getD replacement)

/-- Strict reading: the text of a byte string without invalid parts. -/
def decode? (bytes : List UInt8) : Option (List Char) :=
  (scan bytes).mapM id

def encode (cs : List Char) : List UInt8 :=
  cs.flatMap String.utf8EncodeChar

/-! ## Laws of the scan -/

@[simp] theorem scanFrom_nil (s : State) : scanFrom s [] = finish s := rfl

@[simp] theorem scanFrom_cons (s : State) (b : UInt8) (bs : List UInt8) :
    scanFrom s (b :: bs) = (step s b).1 ++ scanFrom (step s b).2 bs := rfl

end Conformance.Utf8
