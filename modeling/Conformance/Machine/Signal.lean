/-!
# Names of signals

The signals of the machine by their numbers, with the names that commands know them by and the texts
in which a shell reports that one has ended a command.
-/

namespace Conformance.Machine.Signal

/-- The names of the signals, from number one on. -/
def names : List String :=
  ["HUP", "INT", "QUIT", "ILL", "TRAP", "ABRT", "BUS", "FPE", "KILL", "USR1", "SEGV", "USR2", "PIPE",
    "ALRM", "TERM", "STKFLT", "CHLD", "CONT", "STOP", "TSTP", "TTIN", "TTOU", "URG", "XCPU", "XFSZ",
    "VTALRM", "PROF", "WINCH", "IO", "PWR", "SYS"]

/-- The texts of the signals, from number one on. -/
def texts : List String :=
  ["Hangup", "Interrupt", "Quit", "Illegal instruction", "Trace/breakpoint trap", "Aborted",
    "Bus error", "Floating point exception", "Killed", "User defined signal 1",
    "Segmentation fault", "User defined signal 2", "Broken pipe", "Alarm clock", "Terminated",
    "Stack fault", "Child exited", "Continued", "Stopped (signal)", "Stopped",
    "Stopped (tty input)", "Stopped (tty output)", "Urgent I/O condition",
    "CPU time limit exceeded", "File size limit exceeded", "Virtual timer expired",
    "Profiling timer expired", "Window changed", "I/O possible", "Power failure",
    "Bad system call"]

def text (signal : Nat) : String :=
  if signal = 0 then "Signal 0" else (texts[signal - 1]?).getD ("Signal " ++ toString signal)

/-- The signal that a number or a name stands for. Zero is no signal but may be sent. -/
def ofName? (s : String) : Option Nat :=
  match s.toNat? with
  | some n => if n ≤ 64 then some n else none
  | none => do
    let bare := if s.startsWith "SIG" then (s.drop 3).toString else s
    return (← names.findIdx? (· = bare)) + 1

end Conformance.Machine.Signal
