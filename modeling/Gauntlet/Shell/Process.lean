import Gauntlet.Shell.Limits
import Gauntlet.Shell.Program
import Gauntlet.Shell.Signal
import Gauntlet.Shell.Source
import Gauntlet.Shell.Streams

/-! # Processes

  What belongs to one process that runs a script: its variables, functions and streams, its
  numbers, what it does on signals, and the tasks it has begun without waiting for them.
-/

namespace Gauntlet.Shell

/-- Why the statements that follow are not run. -/
inductive Stop where
  | exited
  /-- Something went wrong that ends a script, unless a command is in the way. -/
  | failed
  | signalled (n : Nat)
  /-- A signal has ended a process that waits for this one. -/
  | bereft (pid n : Nat)
  /-- The process gets no further for now, or never. -/
  | killed
  | broke (levels : Nat)
  | continued (levels : Nat)
  | returned
  deriving DecidableEq, Repr

/-- How a process ended. -/
structure Exit where
  status : Nat
  /-- The signal that ended it, if one did. -/
  signal : Option Nat := none
  deriving DecidableEq, Repr, Inhabited

structure Variable where
  value : Option Text := none
  /-- Started programs get it. -/
  exported : Bool := false
  /-- It keeps its value. -/
  constant : Bool := false
  deriving DecidableEq, Repr, Inhabited

/-- Work that a process has begun and not waited for: the processes of a pipeline. -/
structure Task where
  number : Nat
  pids : List Nat
  /-- Its end has been waited for. -/
  awaited : Bool := false
  deriving DecidableEq, Repr, Inhabited

structure KnownProgram where
  name : Text
  /-- The number of the directory in which it was found. -/
  place : Nat
  /-- The working directory has changed since. -/
  stale : Bool := false
  deriving DecidableEq, Repr, Inhabited

/-- What belongs to one process. -/
structure Frame where
  name : Text := shellName
  args : List Text := []
  bindings : List (Text × Variable) := []
  functions : List (Text × Statement) := []
  /-- Words that stand for other text. -/
  aliases : List (Text × Text) := []
  /-- The programs that have been found, in this order. -/
  known : List KnownProgram := []
  descriptors : Descriptors := [(0, 0), (1, 1), (2, 2)]
  /-- The openings that streams will lead to again. -/
  kept : List Nat := []
  /-- The number of the shell that the process is, or is a copy of. -/
  pid : Nat := 1000
  self : Nat := 1000
  parent : Nat := 999
  /-- The process, a copy, ends after the statement that runs: a program may take its place. -/
  last : Bool := false
  /-- How many functions are being run. -/
  calls : Nat := 0
  /-- The working directory as it was asked for. -/
  place : Option Text := none
  /-- What is done on signals, and at the end under the number zero. -/
  traps : List (Nat × Text) := []
  /-- The signals that were ignored when the process began; they stay so. -/
  deaf : List Nat := []
  options : List Char := []
  /-- The outcome of the statements that run is tested, so they may fail. -/
  tested : Bool := false
  loops : Nat := 0
  /-- The earlier values of the local variables of a function. -/
  locals : Option (List (Text × Option Variable)) := none
  /-- The line that complaints name. -/
  line : Nat := 0
  /-- The line up to which the script has been read. -/
  reached : Nat := 1
  /-- The command that complaints name. -/
  within : Option Text := none
  /-- How much of the present option word has been looked at. -/
  optionOffset : Nat := 0
  limits : Limits := []
  /-- The tasks that the process knows of, the last one first. -/
  tasks : List Task := []
  /-- The number of the last process that was not waited for. -/
  background : Option Nat := none

namespace Frame

/-- The openings that the process has. -/
def holds (f : Frame) (p : Nat → Bool) : Bool :=
  f.descriptors.any (fun (_, k) => p k) || f.kept.any p

def has (f : Frame) (c : Char) : Bool := f.options.contains c

def action? (f : Frame) (n : Nat) : Option Text := if n = Signal.kill then none else f.traps.lookup n

/-- Something is done on a signal, or at the end. -/
def hasTraps (f : Frame) : Bool := f.traps.any fun (_, t) => !t.isEmpty

def ignores (f : Frame) (n : Nat) : Bool := f.deaf.contains n || (f.action? n).any List.isEmpty

/-- A signal is met by an action. -/
def expects (f : Frame) (n : Nat) : Bool := !f.deaf.contains n && (f.action? n).any fun t => !t.isEmpty

/-- A signal ends the process. -/
def succumbs (f : Frame) (n : Nat) : Bool :=
  Signal.effect n = .ends && !f.ignores n && (f.action? n).isNone

/-- A program that is started takes the place of the process. -/
def yields (f : Frame) : Bool := f.last && !f.hasTraps

/-- The frame of a copy of the process, which has a number of its own: it knows of no tasks,
    and does nothing on signals but ignore those that were ignored. -/
def copied (f : Frame) (self : Nat) : Frame :=
  { f with
    self, parent := f.self, last := true, tasks := []
    traps := f.traps.filter fun (n, t) => n ≠ 0 && t.isEmpty }

end Frame

/-! ### Tables of names -/

def slot (size : Nat) (name : Text) : Nat :=
  ((name.headD 0).toNat * 16 + name.foldl (fun n b => n + b.toNat) 0) % size

/-- The order in which a table of a size lists its entries: by slots, and in one slot in the
    order in which they came. -/
def tabled {α : Type} (size : Nat) (name : α → Text) (entries : List α) : List α :=
  entries.mergeSort fun a b => slot size (name a) ≤ slot size (name b)

end Gauntlet.Shell
