/-!
# How a child process ended

A wait status is a 32-bit word. Its low seven bits are zero for a process that exited by itself, and
then the next byte is the exit code; they are the signal number for a process that a signal ended.
All ones there mark a stopped or continued process, which is neither.
-/

namespace Conformance

/-- How a child process ended. -/
inductive ExitState where
  /-- It exited with a code. -/
  | code (code : Int)
  /-- A signal ended it. -/
  | signal (signal : Int)
  deriving DecidableEq, Repr

namespace ExitState

/-- The end that a raw wait status tells of. A status that tells of none counts as code `-1`. -/
def ofRaw (raw : UInt32) : ExitState :=
  let low := raw.toNat % 128
  if low = 0 then .code (raw.toNat / 256 % 256 : Nat)
  else if low < 127 then .signal low
  else .code (-1)

def rawOfCode (code : UInt8) : UInt32 := code.toUInt32 * 256

def rawOfSignal (signal : Nat) : UInt32 := .ofNat (signal % 128)

def success (e : ExitState) : Bool := e = .code 0

/-- The text of an end in a failure detail. -/
def text : ExitState → String
  | .code n => toString n
  | .signal n => "signal " ++ toString n

/-- An exit by itself reads back as its code. -/
theorem ofRaw_rawOfCode (code : UInt8) : ofRaw (rawOfCode code) = .code code.toNat := by
  have hc := code.toNat_lt
  have h : (rawOfCode code).toNat = code.toNat * 256 := by
    rw [rawOfCode, UInt32.toNat_mul, UInt8.toNat_toUInt32]
    exact Nat.mod_eq_of_lt (by simpa using (by omega : code.toNat * 256 < 4294967296))
  rw [ofRaw, h, if_pos (by omega), Nat.mul_div_cancel _ (by decide),
    Nat.mod_eq_of_lt (by simpa using hc)]

/-- A death by a signal reads back as the signal, if the status has room for its number. -/
theorem ofRaw_rawOfSignal {n : Nat} (h₀ : n ≠ 0) (h : n < 127) :
    ofRaw (rawOfSignal n) = .signal n := by
  have hm : n % 128 = n := Nat.mod_eq_of_lt (by omega)
  have hn : (rawOfSignal n).toNat = n := by
    rw [rawOfSignal, hm, UInt32.toNat_ofNat_of_lt' (Nat.lt_trans h (by decide))]
  simp only [ofRaw, hn, hm, if_neg h₀, if_pos h]

@[simp] theorem success_iff (e : ExitState) : e.success = true ↔ e = .code 0 := by
  simp [success]

/-- The names of the signals that can end a process. -/
def signalNames : List (Nat × String) :=
  [(1, "SIGHUP"), (2, "SIGINT"), (3, "SIGQUIT"), (4, "SIGILL"), (5, "SIGTRAP"), (6, "SIGABRT"),
   (7, "SIGBUS"), (8, "SIGFPE"), (9, "SIGKILL"), (10, "SIGUSR1"), (11, "SIGSEGV"),
   (12, "SIGUSR2"), (13, "SIGPIPE"), (14, "SIGALRM"), (15, "SIGTERM"), (16, "SIGSTKFLT"),
   (17, "SIGCHLD"), (18, "SIGCONT"), (19, "SIGSTOP"), (20, "SIGTSTP"), (21, "SIGTTIN"),
   (22, "SIGTTOU"), (23, "SIGURG"), (24, "SIGXCPU"), (25, "SIGXFSZ"), (26, "SIGVTALRM"),
   (27, "SIGPROF"), (28, "SIGWINCH"), (29, "SIGIO"), (30, "SIGPWR"), (31, "SIGSYS")]

/-- Whether a raw wait status tells of a core that was dumped. -/
def dumpedCore (raw : UInt32) : Bool := raw.toNat / 128 % 2 = 1

/-- The text of a raw wait status in a report about a tool: a signal is also named where it has a
name, and a core that was dumped is mentioned. -/
def longText (raw : UInt32) : String :=
  match ofRaw raw with
  | .code n => "exit status: " ++ toString n
  | .signal n =>
    let name := ((signalNames.lookup n.toNat).map fun name ↦ " (" ++ name ++ ")").getD ""
    "signal: " ++ toString n ++ name ++ (if dumpedCore raw then " (core dumped)" else "")

end ExitState

end Conformance
