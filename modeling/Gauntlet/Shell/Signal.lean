import Gauntlet.Numeral

/-! # Signals

  The signals that processes send each other, by number and by name, and what becomes
  of a process that does not expect one.
-/

namespace Gauntlet.Shell.Signal

open Text

def names : List Text :=
  ["HUP", "INT", "QUIT", "ILL", "TRAP", "ABRT", "BUS", "FPE", "KILL", "USR1", "SEGV", "USR2", "PIPE",
   "ALRM", "TERM", "16", "CHLD", "CONT", "STOP", "TSTP", "TTIN", "TTOU", "URG", "XCPU", "XFSZ",
   "VTALRM", "PROF", "WINCH", "IO", "PWR", "SYS"]

/-- One more than the largest number of a signal. -/
def bound : Nat := 65

def kill : Nat := 9

/-- The number of the signal after an impossible division. -/
def division : Nat := 8

/-- The number of the signal that interrupts. -/
def interrupt : Nat := 2

/-- The number of the signal that interrupts and asks for a trace. -/
def quit : Nat := 3

/-- The number of the signal to one who writes where nobody reads. -/
def pipe : Nat := 13

/-- The number of the signal that is sent where none is named. -/
def usual : Nat := 15

/-- The number of the signal that tells of the end of a child. -/
def child : Nat := 17

/-- The number of the signal that makes a process go on. -/
def proceed : Nat := 18

/-- The numbers of the first and the last signal that have no meaning of their own. -/
def spare : Nat × Nat := (34, 64)

/-- The name of a signal; one without a meaning of its own is counted from the nearer end of
    them. -/
def nameOf (n : Nat) : Text :=
  let (first, last) := spare
  if n = 0 then "EXIT"
  else if n = first then "RTMIN"
  else if n = last then "RTMAX"
  else if first < n && n ≤ first + 15 then "RTMIN+" ++ Numeral.ofNat (n - first)
  else if first < n && n < last then "RTMAX-" ++ Numeral.ofNat (last - n)
  else (names[n - 1]?).getD (Numeral.ofNat n)

/-- The number of a signal given by name or number, from `least` on. -/
def number? (least : Nat) (t : Text) : Option Nat :=
  if !t.isEmpty && t.all isDigit then
    let n := Numeral.value t
    if n < bound then some n else none
  else
    let known := (List.range bound).filter fun n => least ≤ n
    known.find? fun n => nameOf n = upper t

/-- What happens to a process that does not expect a signal. -/
inductive Effect where
  | nothing
  | stops
  | ends
  deriving DecidableEq, Repr

def effect (n : Nat) : Effect :=
  if [17, 18, 23, 28].contains n then .nothing
  else if [19, 20, 21, 22].contains n then .stops
  else .ends

def meanings : List Text :=
  ["Hangup", "Interrupt", "Quit", "Illegal instruction", "Trace/breakpoint trap", "Aborted",
   "Bus error", "Floating point exception", "Killed", "User defined signal 1", "Segmentation fault",
   "User defined signal 2", "Broken pipe", "Alarm clock", "Terminated", "Stack fault", "Child exited",
   "Continued", "Stopped (signal)", "Stopped", "Stopped (tty input)", "Stopped (tty output)",
   "Urgent I/O condition", "CPU time limit exceeded", "File size limit exceeded",
   "Virtual timer expired", "Profiling timer expired", "Window changed", "I/O possible",
   "Power failure", "Bad system call"]

def meaning (n : Nat) : Text :=
  if n < 1 + meanings.length then (meanings[n - 1]?).getD []
  else if spare.1 ≤ n && n ≤ spare.2 then "Real-time signal " ++ Numeral.ofNat (n - spare.1)
  else "Unknown signal " ++ Numeral.ofNat n

/-- What the shell says when a program was ended by a signal; some ends are silent. -/
def text? (n : Nat) : Option Text :=
  if n = interrupt || n = pipe then none else some (meaning n)

end Gauntlet.Shell.Signal
