import Gauntlet.Command
import Gauntlet.Shell.Running

/-! # The host of a toolchain

  The toolchain of a machine whose programs are the standard tools and scripts. A
  command is looked up, started in its directory and waited for:

  - what cannot be started ends with the reason and no exit code;
  - a time limit and a cancelled run kill the command with all it started;
  - captured output is awaited for a while after the command itself has ended, in
    case something it started still holds the streams.
-/

namespace Gauntlet

/-- What surrounds the processes of a machine; times are in nanoseconds. -/
structure Host where
  /-- How long streams are awaited that outlive their command. -/
  waitDelay : Nat := 2000000000
  /-- When the run is cancelled, counted from the start of a command. -/
  interrupt : Option Nat := none

namespace Host

/-- More statements than a script of a toolchain runs. -/
def patience : Nat := 30000

/-! ### Starting -/

/-- The failure of a name that no program has. -/
def notFound (name : Text) : Failure :=
  .plain ("exec: " ++ Text.quoted name ++ ": executable file not found in $PATH")

/-- The failure of a start without a name. -/
def noCommand : Failure := .plain "exec: no command"

/-- The failure of a start in a directory whose path cannot be told to the program. -/
def badEnvironment : Failure := .plain "exec: environment variable contains NUL"

/-- The failure of a start that the operating system refuses. -/
def refused (path : Text) (e : Errno) : Failure := (OsError.mk "fork/exec" path e).failure

def programPath (d : Disk) (name : Text) : Except Failure Text :=
  if name = [] then .error noCommand
  else if name.contains Path.slash then .ok name
  else match Shell.Program.lookUp? d Shell.searchPath name with
    | some p => .ok p
    | none => .error (notFound name)

/-- The disk as a process in a directory sees it. -/
def enter (d : Disk) (dir : Text) : Except Errno Disk :=
  if dir = [] then .ok d
  else match d.find true dir with
    | .error e => .error e
    | .ok (l, n) =>
      if !n.isDir then .error .notDirectory
      else if !n.executable then .error .denied
      else .ok { d with cwd := some l }

def prepare (d : Disk) (path : Text) (c : Command) : Except Failure (Shell.Program × Disk) :=
  if c.dir.contains 0 then .error badEnvironment
  else if (path :: c.args).any fun t => t.contains 0 then .error (refused path .invalid)
  else match enter d c.dir with
    | .error e => .error (refused path e)
    | .ok inside =>
      match Shell.Program.load inside Shell.Program.interpreterDepth c.program path c.args with
      | .error e => .error (refused path e)
      | .ok p => .ok (p, inside)

/-! ### Running -/

/-- The time limit of a command. -/
def deadline? (c : Command) : Option Nat :=
  if c.timeout.isPositive then some c.timeout.toInt.toNat else none

/-- The earlier of two times, if there are any. -/
def earlier : Option Nat → Option Nat → Option Nat
  | some a, some b => some (min a b)
  | some a, none => some a
  | none, b => b

def reached (time : Option Nat) (now : Nat) : Bool :=
  match time with
  | some t => t ≤ now
  | none => false

/-- How a started command went. -/
structure Account where
  /-- The exit status; nothing if a signal ended the command. -/
  status : Option Nat
  /-- When it was done with, its streams included. -/
  ended : Nat
  /-- The streams were given up. -/
  abandoned : Bool
  group : Shell.Group

/-- The variables of a command: one that is given a directory is told the path of it. -/
def variablesOf (d : Disk) (c : Command) : List (Text × Text) :=
  if c.dir = [] then []
  else match d.absolute c.dir with
    | .ok p => [("PWD", p)]
    | .error _ => []

/-- Lets what a command has started go on after its end, as long as its streams are awaited;
    if nobody awaits them, only until nothing more happens at that time. -/
def afterwards (h : Host) (captured : Bool) (g : Shell.Group) : Shell.Group :=
  let left := { g with stop := none, frame := { descriptors := [] }, above := [] }
  if captured then
    Shell.pausing patience .silence { left with limit := some (g.clock + h.waitDelay + 1) }
  else Shell.pausing patience (.time g.clock) { left with limit := none }

/-- Runs a program until it and its streams are done with; the variables are those it
    gets. -/
def follow (h : Host) (c : Command) (p : Shell.Program) (d : Disk)
    (environment : List (Text × Text)) : Account :=
  let limit := earlier (deadline? c) h.interrupt
  let g := Shell.launch patience p environment { disk := d, limit }
  match g.stop with
  | some .killed =>
    { status := none, ended := limit.getD g.clock, abandoned := false, group := g }
  | stop =>
    let signalled := match stop with
      | some (.signalled _) => true
      | _ => false
    let rest := h.afterwards c.captured g
    let abandoned := rest.stop = some .killed
    { status := if signalled then none else some (g.status % 256)
      ended := if abandoned then g.clock + h.waitDelay else rest.clock
      abandoned, group := rest }

/-- The output in the order of its times. -/
def outputOf (g : Shell.Group) : List (Channel × Text) :=
  (g.writes.reverse.mergeSort fun a b => a.1 ≤ b.1).map (·.2)

def endingOf (c : Command) (k : Account) (cancelled : Bool) : Ending :=
  let failed := k.status ≠ some 0 || k.abandoned
  let duration := Duration.ofNanos k.ended
  if failed && reached (deadline? c) k.ended && !cancelled then
    { exitCode := Ending.unknownCode, timedOut := true, cause := none, duration }
  else
    { exitCode := match k.status with
        | some n => n
        | none => Ending.unknownCode
      timedOut := false
      cause := if cancelled && failed then some cancellation else none
      duration }

/-- A command that was not started. -/
def unstarted (f : Failure) (m : Machine) : Reaction Unit where
  ending := { exitCode := Ending.unknownCode, timedOut := false, cause := some f, duration := Duration.zero }
  machine := m
  memory := ()

def toolchain (h : Host) : Toolchain Unit := fun c _ m =>
  match programPath m.disk c.program with
  | .error f => unstarted f m
  | .ok path =>
    if m.cancelled then unstarted cancellation m
    else match prepare m.disk path c with
      | .error f => unstarted f m
      | .ok (p, inside) =>
        let k := follow h c p inside (variablesOf m.disk c)
        let cancelled := reached h.interrupt k.ended
        { ending := endingOf c k cancelled
          writes := outputOf k.group
          machine := { disk := { k.group.disk with cwd := m.disk.cwd }, cancelled }
          memory := () }

end Host

end Gauntlet
