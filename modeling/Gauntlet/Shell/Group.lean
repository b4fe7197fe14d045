import Gauntlet.Shell.Arithmetic
import Gauntlet.Shell.Tasks

/-! # Groups of processes

  Processes share a world: the disk, the openings of streams, the output written so far and
  a clock that only waiting moves. A group is a world with the process that runs in it, and
  with the processes that run on their own beside it.

  - A process that runs on its own is known by the statement it runs, how it stood at the
    beginning, and the worlds it has met whenever it went on after a wait. Running it again
    through these worlds leads to where it stands now.
  - When the clock reaches the limit of the group all its processes are killed.
-/

namespace Gauntlet.Shell

open Text

/-- The number of the first process, which is the number of the group too. -/
def leader : Nat := 1000

/-- What processes share. -/
structure World where
  disk : Disk
  clock : Nat := 0
  openings : Array Opening := #[.void .reading, .channel .out, .channel .err]
  /-- The openings that are outlets of pipes in use. -/
  pipes : List Nat := []
  /-- The output with its times, last first. -/
  writes : List (Nat × Channel × Text) := []
  /-- Signals on their way, with the process they go to. -/
  pending : List (Nat × Nat) := []
  /-- The numbers of the processes that are there, also of those that have ended and that
      nobody has asked about yet. -/
  processes : List Nat := [leader]
  /-- How processes that ran on their own have ended, last first. -/
  exits : List (Nat × Exit) := []
  /-- How many processes have begun to run on their own. -/
  begun : Nat := 0
  /-- The last process number given. -/
  lastPid : Nat := leader
  /-- The documents of the scripts, by number. -/
  documents : List (Nat × Word) := []
  nextDocument : Nat := 0

/-- What a process waits for. -/
inductive Wait where
  | time (t : Nat)
  /-- The end of processes; if it is `attentive`, a signal that is expected ends the wait
      too. -/
  | ends (pids : List Nat) (attentive : Bool)
  /-- More input from the outlet of a pipe than was received so far, or its end. -/
  | input (outlet received : Nat)
  | room (outlet : Nat)
  /-- Nobody else has an opening any more. -/
  | release (opening : Nat)
  /-- No process that runs on its own has an output of the group. -/
  | silence
  | signal

/-- Processes that run on their own, each of which waits for the one before it. -/
structure Job where
  /-- The number of the process that began it. -/
  pid : Nat
  statement : Statement
  /-- How it stood at the beginning. -/
  frame : Frame
  dir : Option Location
  mask : Nat
  status : Nat
  /-- The worlds it has met, last first. -/
  met : List World := []
  wait : Wait
  /-- Its processes as they stand, the one that waits first. -/
  line : List Frame
  /-- A signal has made it stop. -/
  halted : Bool := false

/-- A world with the process that runs in it. -/
structure Group extends World where
  frame : Frame := {}
  /-- The processes that wait for the one that runs, the nearest first. -/
  above : List Frame := []
  limit : Option Nat := none
  status : Nat := 0
  /-- The status of the last script whose output was taken. -/
  outcome : Nat := 0
  /-- The signal that ended the last program, if one did. -/
  signal : Option Nat := none
  stop : Option Stop := none
  /-- The processes beside it that run on their own. If it runs on its own itself, those that
      it has begun since its last wait. -/
  jobs : List Job := []
  /-- The worlds that the process, which runs on its own, meets at the ends of its next waits;
      nothing if it is the one that the others are beside. -/
  path : Option (List World) := none
  /-- What the process waits for, and its line, if it gets no further. -/
  blocked : Option (Wait × List Frame) := none

namespace Group

def inFrame (g : Group) (f : Frame → Frame) : Group := { g with frame := f g.frame }

def ending (g : Group) (status : Nat) : Group := { g with status }

/-- The group in another world; the working directory and the mask of new files are the
    process's own. -/
def enter (g : Group) (w : World) : Group :=
  { g with toWorld := { w with disk := { w.disk with cwd := g.disk.cwd, mask := g.disk.mask } } }

def atTime (g : Group) (t : Nat) : Group :=
  { g with
    clock := t
    disk := { g.disk with now := .ofNanos (g.disk.now.toNanos + (t - g.clock : Nat)) } }

/-- A signal is on its way to a process; it is not sent twice. -/
def sending (g : Group) (pid n : Nat) : Group :=
  if g.pending.contains (pid, n) then g else { g with pending := g.pending ++ [(pid, n)] }

/-! ### Streams -/

/-- Where a stream leads. -/
def opening? (g : Group) (stream : Nat) : Option Opening :=
  (g.frame.descriptors.lookup stream).bind fun k => g.openings[k]?

/-- Why nothing can be written to a stream, if that is so. -/
def closure? (g : Group) (stream : Nat) : Option Errno :=
  match g.opening? stream with
  | some o => o.closure?
  | none => some .badStream

/-- Something can be written to a stream. -/
def takes (g : Group) (stream : Nat) : Bool := (g.closure? stream).isNone

/-- The pipe that an opening is an end of, and the number of its outlet. -/
def pipeAt? (g : Group) (k : Nat) : Option (Nat × Pipe) :=
  match g.openings[k]? with
  | some (.inlet j) => ((g.openings[j]?).bind Opening.pipe?).map (j, ·)
  | some (.outlet p) => some (k, p)
  | _ => none

/-- A stream leads to a pipe that nobody reads. -/
def isCut (g : Group) (stream : Nat) : Bool :=
  ((g.frame.descriptors.lookup stream).bind g.pipeAt?).any fun (_, p) => p.broken

/-- The pipe that a process has filled, by the opening of its outlet. -/
def overfull? (g : Group) : Option Nat :=
  (g.frame.descriptors.filterMap fun (_, k) =>
    match g.openings[k]? with
    | some (.inlet _) => (g.pipeAt? k).filter fun (_, p) => p.isFull
    | _ => none).head?.map Prod.fst

/-- The pipe from which a stream gets its input, as long as more can come. -/
def supply? (g : Group) (stream : Nat) : Option (Nat × Pipe) :=
  match g.frame.descriptors.lookup stream with
  | some k =>
    match g.openings[k]? with
    | some (.outlet p) => if p.ended then none else some (k, p)
    | _ => none
  | none => none

/-- Writes a text to an opening. Writing to a pipe that nobody reads gives a signal. -/
def put (g : Group) (k : Nat) (t : Text) : Group :=
  if t.isEmpty then g
  else match g.openings[k]? with
    | some (.channel c) => { g with writes := (g.clock, c, t) :: g.writes }
    | some (.file l offset a) =>
      if a = .reading then g
      else if a = .adding then { g with disk := g.disk.append l t }
      else
        { g with
          disk := g.disk.writeAt l offset t
          openings := g.openings.setIfInBounds k (.file l (offset + t.length) a) }
    | some (.collected parts) =>
      { g with openings := g.openings.setIfInBounds k (.collected (t :: parts)) }
    | some (.inlet j) =>
      if (g.pipeAt? k).any fun (_, p) => p.broken then g.sending g.frame.self Signal.pipe
      else { g with openings := g.openings.modify j (Opening.receive t) }
    | _ => g

def writeTo (g : Group) (stream : Nat) (t : Text) : Group :=
  match g.frame.descriptors.lookup stream with
  | some k => g.put k t
  | none => g

def streamOf : Channel → Nat
  | .out => 1
  | .err => 2

def write (g : Group) (c : Channel) (t : Text) : Group := g.writeTo (streamOf c) t

def available (g : Group) (stream : Nat) : Text :=
  match g.opening? stream with
  | some o => o.available g.disk
  | none => []

/-- What conditions of the process speak about. -/
def scene (g : Group) : Condition.Scene where
  disk := g.disk
  stream k := (g.opening? k).map Opening.kind

def toolInput (g : Group) : Except Errno Text :=
  match g.opening? 0 with
  | none => .error .badStream
  | some o =>
    match o.refusal? g.disk with
    | some e => .error e
    | none => .ok (o.available g.disk)

/-- Moves a stream past bytes that have been read. -/
def consume (g : Group) (stream count : Nat) : Group :=
  match g.frame.descriptors.lookup stream with
  | some k => { g with openings := g.openings.modify k (Opening.past count) }
  | none => g

def opened (g : Group) (o : Opening) : Nat × Group :=
  (g.openings.size, { g with openings := g.openings.push o })

def leading (g : Group) (stream : Nat) (o : Opening) : Group :=
  let (k, g) := g.opened o
  g.inFrame fun f => { f with descriptors := f.descriptors.lead stream k }

/-- A new pipe: the openings of its outlet and its inlet. -/
def newPipe (g : Group) : Nat × Nat × Group :=
  let (outlet, g) := g.opened (.outlet {})
  let (inlet, g) := g.opened (.inlet outlet)
  (outlet, inlet, { g with pipes := outlet :: g.pipes })

def collected (g : Group) (k : Nat) : Text :=
  match g.openings[k]? with
  | some (.collected parts) => Pipe.joined parts
  | _ => []

/-! ### Complaints -/

def complain (g : Group) (message : Text) : Group :=
  let place : Text := match g.frame.within with
    | some c => c ++ ": "
    | none => []
  g.write .err (g.frame.name ++ ": " ++ Numeral.ofNat g.frame.line ++ ": " ++ place ++ message ++ "\n")

/-- A complaint that ends the script or the command it is about. -/
def fail (g : Group) (message : Text) : Group :=
  { g.complain message with status := 2, stop := some .failed }

/-- The output and the status of a command of the shell itself. -/
def answer (g : Group) (t : Text) (status : Nat) : Group :=
  let h := g.write .out t
  if t.isEmpty || (g.takes 1 && !(g.isCut 1 && !g.frame.succumbs Signal.pipe)) then h.ending status
  else (h.complain (g.frame.within.getD [] ++ ": I/O error")).ending (if status = 0 then 1 else status)

/-- Ends a strict process after a failure that nobody tests. -/
def checked (g : Group) : Group :=
  if g.frame.has 'e' && !g.frame.tested && g.status ≠ 0 && g.stop.isNone then
    { g with stop := some .exited }
  else g

/-- Runs something after which the process goes on. -/
def goingOn (g : Group) (act : Group → Group) : Group :=
  let h := act (g.inFrame fun f => { f with last := false })
  h.inFrame fun f => { f with last := g.frame.last }

/-- Runs something whose outcome is tested, or is not. -/
def testing (g : Group) (tested : Bool) (act : Group → Group) : Group :=
  g.goingOn fun g =>
    let h := act (g.inFrame fun f => { f with tested })
    h.inFrame fun f => { f with tested := g.frame.tested }

/-! ### What tools did -/

/-- What is left to write of texts to the two output streams, of each of which some bytes have
    been written. -/
def unwritten : (out err : Nat) → List (Channel × Text) → List (Channel × Text)
  | _, _, [] => []
  | out, err, (.out, t) :: rest => (.out, t.drop out) :: unwritten (out - t.length) err rest
  | out, err, (.err, t) :: rest => (.err, t.drop err) :: unwritten out (err - t.length) rest

/-- A tool writes; if nobody reads what it writes it ends with a signal. -/
def wroteAs (g : Group) (called : Text) (writes : List (Channel × Text)) : Group :=
  writes.foldl (fun g (c, t) =>
    if t.isEmpty || g.stop.isSome then g
    else if !g.isCut (streamOf c) then g.write c t
    else if g.frame.ignores Signal.pipe then
      (g.write .err (called ++ ": write error: Broken pipe\n")).ending 1
    else { g with stop := some (.signalled Signal.pipe) }) g

/-! ### Variables -/

def binding? (g : Group) (name : Text) : Option Variable := g.frame.bindings.lookup name

def assigned? (g : Group) (name : Text) : Option Text := (g.binding? name).bind Variable.value

/-- Entries with the value of a name replaced, or with a new one at the end. -/
def stored {α : Type} (name : Text) (v : α) : List (Text × α) → List (Text × α)
  | [] => [(name, v)]
  | (x, w) :: rest => if x = name then (x, v) :: rest else (x, w) :: stored name v rest

/-- The group with a variable as given, or without it. Programs are looked for anew after
    a change of the directories to look in. -/
def put? (g : Group) (name : Text) (v : Option Variable) : Group :=
  g.inFrame fun f =>
    { f with
      known := if name = "PATH" then [] else f.known
      bindings := match v with
        | some v => stored name v f.bindings
        | none => f.bindings.filter (·.1 ≠ name) }

/-- The group with a variable set; one that is constant is a failure. -/
def set (g : Group) (name value : Text) : Group :=
  let v := (g.binding? name).getD {}
  if !isName (letters name) then g.fail (name ++ ": bad variable name")
  else if v.constant then g.fail (name ++ ": is read only")
  else
    let g := if name = "OPTIND" then g.inFrame fun f => { f with optionOffset := 0 } else g
    g.put? name (some { v with value := some value, exported := v.exported || g.frame.has 'a' })

def unset (g : Group) (name : Text) : Group :=
  let v := (g.binding? name).getD {}
  if !isName (letters name) then g.fail (name ++ ": bad variable name")
  else if v.constant then g.fail (name ++ ": is read only")
  else g.put? name none

def mark (g : Group) (name : Text) (f : Variable → Variable) : Group :=
  g.put? name (some (f ((g.binding? name).getD {})))

/-- The name and the value of a word of the form `name=value`, or only a name. -/
def halves (word : Text) : Text × Option Text :=
  let name := word.takeWhile (· ≠ byte '=')
  (name, if name.length < word.length then some (word.drop (name.length + 1)) else none)

def makeLocal (g : Group) (name : Text) : Group :=
  match g.frame.locals with
  | some saved =>
    if (saved.lookup name).isSome then g
    else g.inFrame fun f => { f with locals := some ((name, g.binding? name) :: saved) }
  | none => g

/-- Gives variables their earlier values. -/
def restoring (g : Group) (saved : List (Text × Option Variable)) : Group :=
  saved.foldl (fun g (name, v) => g.put? name v) g

/-- The letters of the options that are set, in the order in which they are shown. -/
def optionLetters (g : Group) : Text :=
  (("ubaCEVvxsnmiIfe".toList).filter g.frame.has).map byte

/-- The first separator of fields; nothing if there is none. -/
def separator (g : Group) : Text :=
  match g.assigned? "IFS" with
  | some t => t.take 1
  | none => " "

def parameter? (g : Group) (name : Text) : Option Text :=
  if name = "#" then some (Numeral.ofNat g.frame.args.length)
  else if name = "?" then some (Numeral.ofNat g.status)
  else if name = "$" then some (Numeral.ofNat g.frame.pid)
  else if name = "!" then g.frame.background.map Numeral.ofNat
  else if name = "-" then some g.optionLetters
  else if name = "*" || name = "@" then some (intercalate g.separator g.frame.args)
  else if name.head?.any isDigit then
    match Numeral.value name with
    | 0 => some g.frame.name
    | k + 1 => g.frame.args[k]?
  else g.assigned? name

/-- The number that a variable holds. -/
def numberOf (g : Group) (name : List Char) : Except Arithmetic.Problem Int :=
  Arithmetic.ofText ((g.assigned? (textOf name)).getD [])

def variableSlots : Nat := 39

def environment (g : Group) : List (Text × Text) :=
  tabled variableSlots Prod.fst
    (g.frame.bindings.filterMap fun (x, v) => if v.exported then v.value.map (x, ·) else none)

/-! ### The working directory -/

/-- The path of the working directory, by the names that led to it. -/
def currentDir (g : Group) : Text :=
  match g.frame.place with
  | some p => p
  | none => (g.disk.workingDir.toOption).getD []

/-- The working directory cannot be told. -/
def noDirectory : Text := "getcwd() failed: No such file or directory"

/-- The group with the path of the working directory recorded. -/
def recordDir (g : Group) (p : Text) : Group :=
  (g.inFrame fun f => { f with place := some p }).put? "PWD" (some { value := some p, exported := true })

/-! ### Processes -/

def signalsTo (g : Group) (pid : Nat) : List Nat :=
  (g.pending.filter fun (p, _) => p = pid).map Prod.snd

/-- The group after a signal has reached a process. -/
def received (g : Group) (pid n : Nat) : Group := { g with pending := g.pending.erase (pid, n) }

/-- The shell asks about the processes it has begun: those that have ended are no longer
    there. -/
def reaped (g : Group) : Group :=
  let gone := (g.frame.tasks.flatMap Task.pids).filter fun p => (g.exits.lookup p).isSome
  if gone.isEmpty then g else { g with processes := g.processes.filter fun p => !gone.contains p }

/-- The shell starts processes and will wait for them. -/
def forking (g : Group) : Group :=
  if g.frame.tasks.isEmpty then g
  else g.inFrame fun f => { f with tasks := Tasks.cleared g.exits f.tasks }

/-- The shell has waited for processes that it started. -/
def returned (g : Group) (pids : List Nat) : Group :=
  { g with processes := g.processes.filter fun p => !pids.contains p }.reaped

/-- Runs something in a copy of the process, whose frame is dropped afterwards. If the process
    ends after that, it needs no copy. -/
def inCopy (g : Group) (yields : Bool) (act : Group → Group) : Group :=
  let g := if yields then g else g.forking
  let pid := if yields then g.frame.self else g.lastPid + 1
  let copy := g.frame.copied pid
  let h :=
    if yields then act (g.inFrame fun f => { copy with parent := f.parent })
    else act { g with
      frame := copy, above := g.frame :: g.above, lastPid := pid, processes := pid :: g.processes }
  let (status, signal, stop) : Nat × Option Nat × Option Stop := match h.stop with
    | some .killed => (h.status, none, some .killed)
    | some (.bereft p n) =>
      (128 + n, none, some (if p = g.frame.self then .signalled n else .bereft p n))
    | some (.signalled n) =>
      if yields then (128 + n, none, some (.signalled n)) else (128 + n, some n, g.stop)
    | _ => (h.status % 256, none, g.stop)
  let back := { h with
    frame := g.frame, above := g.above, status, signal, stop
    disk := { h.disk with cwd := g.disk.cwd, mask := g.disk.mask } }
  if yields || stop = some .killed then back
  else
    let told := if g.frame.expects Signal.child then back.sending g.frame.self Signal.child else back
    told.returned [pid]

/-- Begins to run a statement in a copy of the process that runs on its own; gives the number
    of that process. -/
def spawn (g : Group) (s : Statement) (change : Frame → Frame) : Nat × Group :=
  let pid := g.lastPid + 1
  let frame := change (g.frame.copied pid)
  let job : Job :=
    { pid, statement := s, frame, dir := g.disk.cwd, mask := g.disk.mask, status := g.status
      wait := .time g.clock, line := [{ frame with deaf := g.frame.deaf }] }
  (pid, { g with
    jobs := g.jobs ++ [job], lastPid := pid, begun := g.begun + 1, processes := pid :: g.processes })

/-- Begins to run the stages of a pipeline, each of which reads what the one before it writes;
    the first reads from an opening, if one is given. -/
def spawnStages (g : Group) (change : Frame → Frame) :
    (input : Option Nat) → List Statement → List Nat × Group
  | _, [] => ([], g)
  | input, s :: rest =>
    let reading (f : Frame) : Frame := match input with
      | some k => { f with descriptors := f.descriptors.lead 0 k }
      | none => f
    match rest with
    | [] =>
      let (pid, g) := g.spawn s fun f => reading (change f)
      ([pid], g)
    | _ =>
      let (outlet, inlet, g) := g.newPipe
      let (pid, g) := g.spawn s fun f =>
        let f := reading (change f)
        { f with descriptors := f.descriptors.lead 1 inlet }
      let (pids, g) := spawnStages g change (some outlet) rest
      (pid :: pids, g)

/-- Work is begun that is not waited for. -/
def tasked (g : Group) (pids : List Nat) : Group :=
  g.inFrame fun f =>
    { f with tasks := Tasks.beginning g.exits pids f.tasks, background := pids.getLast?.or f.background }

/-! ### Waiting -/

/-- Some of the processes have an opening that satisfies a predicate. -/
def anyHolds (fs : List Frame) (p : Nat → Bool) : Bool :=
  fs.any fun f => f.holds p

/-- The processes that are there, as they stand. -/
def frames (g : Group) : List Frame := g.frame :: g.above ++ g.jobs.flatMap Job.line

/-- The group with its pipes marked that nobody can write to or read from any more. -/
def tidied (g : Group) : Group :=
  let fs := g.frames
  g.pipes.foldl (fun (g : Group) (k : Nat) =>
    match g.openings[k]? with
    | some (.outlet p) =>
      let writes (j : Nat) : Bool := match g.openings[j]? with
        | some (.inlet i) => i = k
        | _ => false
      let ended := !anyHolds fs writes
      let broken := !anyHolds fs (· = k)
      { g with
        openings := g.openings.setIfInBounds k (.outlet { p with ended, broken })
        pipes := if ended && broken then g.pipes.erase k else g.pipes }
    | _ => g) g

/-- A process, the first of a line, has what it waits for, or a signal that ends its wait. -/
def isReady (g : Group) (line : List Frame) (w : Wait) : Bool :=
  let pipe (k : Nat) (p : Pipe → Bool) : Bool := ((g.openings[k]?).bind Opening.pipe?).all p
  let sent (p : Frame → Nat → Bool) : Bool :=
    line.head?.any fun f => (g.signalsTo f.self).any (p f)
  match w with
  | .time t => t ≤ g.clock || sent Frame.succumbs
  | .ends pids attentive =>
    pids.all (fun p => (g.exits.lookup p).isSome) || sent fun f n =>
      f.succumbs n || (attentive && f.expects n)
  | .input k received => (pipe k fun p => received < p.received || p.ended) || sent Frame.succumbs
  | .room k => (pipe k fun p => !p.isFull) || sent Frame.succumbs
  | .release k => !anyHolds g.frames (· = k) || sent Frame.succumbs
  | .silence =>
    !anyHolds (g.jobs.flatMap Job.line) fun k => (g.openings[k]?).any Opening.isChannel
  | .signal => sent fun _ n => n = Signal.proceed || n = Signal.kill

def timeOf? : Wait → Option Nat
  | .time t => some t
  | _ => none

def nextTime? (g : Group) (w : Wait) : Option Nat :=
  let waits := w :: (g.jobs.filter fun j => !j.halted).map Job.wait
  let times := (waits.filterMap timeOf?).filter fun t => g.clock < t
  times.min?

/-- The frame of the process that began a job, as it stands. -/
def baseOf (j : Job) : Frame := j.line.getLast?.getD j.frame

/-- The signal that ends the process that began a job, unless one has done so before. -/
def blow? (g : Group) (j : Job) : Option Nat :=
  if (g.exits.lookup j.pid).isSome then none else (g.signalsTo j.pid).find? (baseOf j).succumbs

/-- A signal stops a job or makes it go on. -/
def turns (j : Job) (n : Nat) : Bool :=
  n = Signal.proceed || (Signal.effect n = .stops && !(baseOf j).ignores n && !(baseOf j).expects n)

def isDue (g : Group) (j : Job) : Bool :=
  (g.blow? j).isSome || (g.signalsTo j.pid).any (turns j) || (!j.halted && g.isReady j.line j.wait)

/-- How a job has ended is known. If the process that started it is gone, nothing is left of
    it; if that process wants to be told, it is. -/
def noted (g : Group) (j : Job) (e : Exit) : Group :=
  let starter := g.frames.find? fun f => f.self = j.frame.parent
  let g := { g with
    exits := (j.pid, e) :: g.exits
    processes := if starter.isSome then g.processes else g.processes.erase j.pid }
  match starter with
  | some f => if f.expects Signal.child then g.sending f.self Signal.child else g
  | none => g

def ended (g : Group) (j : Job) (e : Exit) : Group :=
  let g := { g with jobs := g.jobs.filter (·.pid ≠ j.pid) }
  if (g.exits.lookup j.pid).isSome then g else g.noted j e

/-- A signal has ended the process that began a job. What it waits for goes on without it. -/
def felled (g : Group) (j : Job) (n : Nat) : Group :=
  let e : Exit := { status := 128 + n, signal := some n }
  if j.line.length ≤ 1 then (g.received j.pid n).ended j e else g.noted j e

/-- A job has been stopped or goes on. -/
def turned (g : Group) (j : Job) : Group :=
  let halted := ((g.signalsTo j.pid).filter (turns j)).getLast?.any (· ≠ Signal.proceed)
  { g with
    pending := g.pending.filter fun (p, n) => p ≠ j.pid || !turns j n
    jobs := g.jobs.map fun k => if k.pid = j.pid then { k with halted } else k }

/-- The signal that ends a process that waits for the one that runs, and that process. -/
def loss? (g : Group) : Option (Nat × Nat) :=
  g.above.reverse.findSome? fun f => ((g.signalsTo f.self).find? f.succumbs).map (f.self, ·)

/-- A process outlives those that wait for it. It does nothing but keep its streams until a
    time. -/
def surviving (g : Group) (w : Wait) : Group :=
  match timeOf? w with
  | some t =>
    if t ≤ g.clock then g
    else
      let job : Job :=
        { pid := g.frame.self, statement := .block [], frame := { g.frame with parent := 0, traps := [] }
          dir := none, mask := 0, status := 0, wait := .time t, line := [g.frame] }
      { g with begun := g.begun + 1, jobs := g.jobs ++ [job] }
  | none => g

/-- A signal that has come during a wait ends the process, or those that wait for it. -/
def struckAfter (g : Group) (w : Wait) : Group :=
  match (g.signalsTo g.frame.self).find? g.frame.succumbs with
  | some n => { g.received g.frame.self n with stop := some (.signalled n) }
  | none =>
    match if g.path.isNone then g.loss? else none with
    | some (p, n) => { (g.received p n).surviving w with stop := some (.bereft p n) }
    | none => g

end Group

end Gauntlet.Shell
