import Gauntlet.Disk.File
import Gauntlet.Shell.Script
import Gauntlet.Terminal

/-! # Open streams

  A process knows its streams by numbers. A number leads to an opening, which several
  numbers and several processes can share: they then share the place in the file too.

  A pipe has two openings. Its outlet holds what has been written to its inlet and not yet
  been read; it also tells whether somebody can still write or read at all.
-/

namespace Gauntlet.Shell

/-- What a stream leads to, told apart as files are. -/
inductive StreamKind where
  | device
  | pipe
  | file (l : Location)
  deriving DecidableEq, Repr

/-- Something that stands on the disk. -/
def StreamKind.isFile : StreamKind → Bool
  | file _ => true
  | _ => false

/-- The number of the stream that a path stands for. -/
def streamOfPath? (path : Text) : Option Nat :=
  if path = "/dev/stdin" then some 0
  else if path = "/dev/stdout" then some 1
  else if path = "/dev/stderr" then some 2
  else match Text.after? "/dev/fd/" path with
    | some ds =>
      if ds.isEmpty || !ds.all Text.isDigit then none
      else some (Numeral.value ds)
    | none => none

/-! ### Pipes -/

structure Pipe where
  /-- What has been written and not read, last parts first. -/
  parts : List Text := []
  received : Nat := 0
  taken : Nat := 0
  /-- Nobody can write any more. -/
  ended : Bool := false
  /-- Nobody can read any more. -/
  broken : Bool := false
  deriving Repr, Inhabited

namespace Pipe

/-- How many bytes a pipe takes before those who write have to wait. -/
def capacity : Nat := 65536

def isFull (p : Pipe) : Bool := p.taken + capacity ≤ p.received && !p.broken

def receive (t : Text) (p : Pipe) : Pipe :=
  { p with parts := t :: p.parts, received := p.received + t.length }

/-- The parts of a text, last first, as one. -/
def joined : List Text → Text
  | [] => []
  | [t] => t
  | parts => parts.reverse.flatten

def past (k : Nat) (p : Pipe) : Pipe :=
  let t := joined p.parts
  let rest := t.drop k
  { p with parts := if rest.isEmpty then [] else [rest], taken := p.taken + (t.take k).length }

end Pipe

/-! ### Openings -/

inductive Opening where
  /-- An output of the command. -/
  | channel (c : Channel)
  /-- A file, with the place of the next byte. -/
  | file (l : Location) (offset : Nat) (access : Access)
  /-- A text that is given, as far as it has not been read. -/
  | given (t : Text)
  /-- A text that is collected, last parts first. -/
  | collected (parts : List Text)
  /-- The end of a pipe that is read. -/
  | outlet (p : Pipe)
  /-- The end of a pipe that is written to; the other end is the opening of the number. -/
  | inlet (outlet : Nat)
  /-- Takes everything and gives nothing. -/
  | void (access : Access)
  /-- Takes and gives nothing, for want of space. -/
  | full (access : Access)
  deriving Repr, Inhabited

namespace Opening

/-- What can be done with an opening. -/
def access : Opening → Access
  | channel _ => .adding
  | file _ _ a => a
  | given _ => .reading
  | collected _ => .adding
  | outlet _ => .reading
  | inlet _ => .adding
  | void a => a
  | full a => a

/-- Why nothing can be written, if that is so. -/
def closure? : Opening → Option Errno
  | full a => some (if a = .reading then .badStream else .noSpace)
  | o => if o.access = .reading then some .badStream else none

/-- Something can be read. -/
def gives (o : Opening) : Bool := o.access = .reading || o.access = .updating

def isChannel : Opening → Bool
  | channel _ => true
  | _ => false

def kind : Opening → StreamKind
  | file l _ _ => .file l
  | void _ => .device
  | full _ => .device
  | _ => .pipe

def available (d : Disk) : Opening → Text
  | file l offset a =>
    match d.node? l with
    | some (.file data _ _) => if a = .reading || a = .updating then data.drop offset else []
    | _ => []
  | given t => t
  | outlet p => Pipe.joined p.parts
  | _ => []

/-- Why nothing can be read, if that is so. -/
def refusal? (d : Disk) : Opening → Option Errno
  | file l _ a =>
    if (d.node? l).any Node.isDir then some .isDirectory
    else if a = .reading || a = .updating then none
    else some .badStream
  | o => if o.gives then none else some .badStream

def past (k : Nat) : Opening → Opening
  | file l offset a => file l (offset + k) a
  | given t => given (t.drop k)
  | outlet p => outlet (p.past k)
  | o => o

/-- The opening after a text has been written to the other end of its pipe. -/
def receive (t : Text) : Opening → Opening
  | outlet p => outlet (p.receive t)
  | o => o

def pipe? : Opening → Option Pipe
  | outlet p => some p
  | _ => none

end Opening

/-! ### Numbers of streams -/

/-- The numbers of streams and where they lead. -/
abbrev Descriptors := List (Nat × Nat)

namespace Descriptors

def close (ds : Descriptors) (n : Nat) : Descriptors := ds.filter (·.1 ≠ n)

/-- With a stream that leads somewhere. -/
def lead (ds : Descriptors) (n k : Nat) : Descriptors := (n, k) :: ds.close n

def restore (ds before : Descriptors) (streams : List Nat) : Descriptors :=
  streams.foldl (fun ds n =>
    match before.lookup n with
    | some k => ds.lead n k
    | none => ds.close n) ds

end Descriptors

def Redirect.stream : Redirect → Nat
  | .file n _ _ => n
  | .like n _ => n
  | .document n _ => n

end Gauntlet.Shell
