import Gauntlet.Shell.Commands
import Gauntlet.Shell.Home

/-! # Running shell scripts

  Statements act on a group of processes. A process that runs on its own runs until it has
  to wait; the worlds that it meets when it goes on are kept, and to go on means to run
  again through them and then further. The process that all others are beside does not run
  again: while it waits, the others go on.

  Running takes a bound on the number of nested statements; loops have a bound of their
  own.
-/

namespace Gauntlet.Shell

open Text

/-! ### Repetition -/

/-- Repeats a step until it says that it was the last, at most a number of times; tells
    whether more steps would have followed. -/
def iterate {σ : Type} (step : σ → σ × Bool) : (rounds : Nat) → σ → σ × Bool
  | 0, s => (s, true)
  | n + 1, s =>
    match step s with
    | (s, true) => iterate step n s
    | (s, false) => (s, false)

/-- More rounds than a loop of a script makes. -/
def roundLimit : Nat := 100000

/-- Runs statements until one of them stops; the process goes on after all but the last. -/
def inOrder (act : Statement → Group → Group) : List Statement → Group → Group
  | [], g => g
  | [s], g => if g.stop.isSome then g else act s g
  | s :: ss, g => if g.stop.isSome then g else inOrder act ss (g.goingOn (act s))

/-- What the end of a part of a loop means for the loop: it goes on, or it is left. -/
def afterPart (g : Group) : Group × Bool :=
  match g.stop with
  | none => (g, true)
  | some (.continued 0) => ({ g with stop := none }, true)
  | some (.continued (k + 1)) => ({ g with stop := some (.continued k) }, false)
  | some (.broke 0) => ({ g with stop := none }, false)
  | some (.broke (k + 1)) => ({ g with stop := some (.broke k) }, false)
  | some _ => (g, false)

/-- Runs something as a part of a loop. -/
def inLoop (g : Group) (act : Group → Group) : Group :=
  let h := (g.inFrame fun f => { f with loops := f.loops + 1 }).goingOn act
  h.inFrame fun f => { f with loops := g.frame.loops }

/-- One round of a loop with a condition; the number is the status of the last body. -/
def conditionalRound (wanted : Bool) (condition body : Group → Group) :
    Group × Nat → (Group × Nat) × Bool
  | (g, last) =>
    let h := inLoop g fun g => g.testing true condition
    match h.stop with
    | some (.continued 0) => (({ h with stop := none }, last), true)
    | some .returned => ((h, h.status), false)
    | some _ => (((afterPart h).1, last), false)
    | none =>
      if decide (h.status = 0) = wanted then
        let (h, more) := afterPart (inLoop h body)
        ((h, h.status), more)
      else ((h, last), false)

def repeating (wanted : Bool) (condition body : Group → Group) (g : Group) : Group :=
  match iterate (conditionalRound wanted condition body) roundLimit (g, 0) with
  | ((h, _), true) => { h with stop := some .killed }
  | ((h, last), false) => if h.stop.isSome then h else h.ending last

def iterating (name : Text) (body : Group → Group) (items : List Text) (g : Group) : Group :=
  (items.foldl (fun (g, more) t =>
    if !more then (g, false)
    else
      let h := g.set name t
      if h.stop.isSome then (h, false) else afterPart (inLoop h body)) (g.ending 0, true)).1

/-! ### Values -/

def withoutNewlines (t : Text) : Text := (t.reverse.dropWhile (· = 10)).reverse

/-- How a word is expanded. -/
structure Manner where
  /-- It is cut into fields. -/
  splitting : Bool := true
  /-- It is an operand outside quotes, so that its own text is cut too. -/
  operand : Bool := false
  assigned : Bool := false

def fromText (quoted : Bool) (t : Text) : List Part :=
  if quoted then [.whole (Pattern.quoted t)] else [.loose (t.map some)]

/-- The parts of a text from an expansion, in which `none` stands between two arguments. -/
def fromArguments (quoted : Bool) (t : List (Option UInt8)) : List Part :=
  if !quoted then [.loose t]
  else ((t.splitOnP Option.isNone).map fun a =>
    [Part.whole (Pattern.quoted (a.filterMap id))]).intersperse [.cut] |>.flatten

/-- The value of a parameter, in which `none` stands between two arguments that are to be
    fields of their own. -/
def bytesOf (g : Group) (m : Manner) (name : Text) (quoted : Bool) (value : Text) :
    List (Option UInt8) :=
  if name ≠ "@" && name ≠ "*" then value.map some
  else if !m.splitting || (quoted && name = "*") then
    (intercalate g.separator g.frame.args).map some
  else ((g.frame.args.map fun (a : Text) => a.map some).intersperse [none]).flatten

/-- The parts of a parameter that has a value; no arguments give no field. -/
def valueParts (g : Group) (m : Manner) (name : Text) (quoted : Bool) (value : Text)
    (change : List (Option UInt8) → List (Option UInt8) := id) : List Part :=
  if name = "@" && m.splitting && g.frame.args.isEmpty then []
  else fromArguments quoted (change (bytesOf g m name quoted value))

/-- The group after an expression has been worked out, and the parts of its value. -/
def numberParts (g : Group) (quoted : Bool) (source : Text) : List Part × Group :=
  match Arithmetic.eval g.numberOf (letters source) with
  | .ok (v, made) =>
    (fromText quoted (Numeral.ofInt v),
      made.foldl (fun g (x, k) =>
        if g.stop.isSome then g else g.set (textOf x) (Numeral.ofInt k)) g)
  | .error .overflow => ([], { g with stop := some (.signalled Signal.division) })
  | .error e => ([], g.fail (e.message source))

/-! ### Streams -/

/-- The shell says which signal ended the last program. -/
def announce (g : Group) : Group :=
  match g.signal.bind Signal.text? with
  | some t => { g.write .err (t ++ "\n") with signal := none }
  | none => { g with signal := none }

def openingProblem (creating : Bool) (e : Errno) : Text :=
  if e = .missing || e = .notDirectory then
    (if creating then "Directory nonexistent" else "No such file")
  else Tools.reason e

/-- A stream leads to a file; nothing if that fails, which the shell says. -/
def openFile (g : Group) (stream : Nat) (access : Access) (path : Text) : Group × Bool :=
  let problem (creating : Bool) (e : Errno) : Group × Bool :=
    let what : Text := if creating then "cannot create " else "cannot open "
    ((g.complain (what ++ path ++ ": " ++ openingProblem creating e)).ending 2, false)
  let created (r : Except OsError (Location × Disk)) : Group × Bool :=
    match r with
    | .ok (l, disk) => ({ g with disk }.leading stream (.file l 0 access), true)
    | .error e => problem true e.errno
  let device := (g.disk.stat path).toOption.filter fun (_, n) => n.isDevice
  if device.isSome then
    let full := device.any fun (l, _) => l = Program.fullDevice
    (g.leading stream (if full then .full access else .void access), true)
  else match (streamOfPath? path).bind fun k => g.frame.descriptors.lookup k with
    | some k => (g.inFrame fun f => { f with descriptors := f.descriptors.lead stream k }, true)
    | none =>
      match access with
      | .reading =>
        match g.disk.find true path with
        | .error e => problem false e
        | .ok (l, n) =>
          if n.readable then (g.leading stream (.file l 0 .reading), true) else problem false .denied
      | .adding => created (g.disk.openForAdding path 0o666)
      | .updating => created (g.disk.openForAdding path 0o666)
      | .replacing => created (g.disk.openForWriting path 0o666)
      | .writing =>
        if g.frame.has 'C' && (g.disk.stat path).toOption.any fun (_, n) => n.isFile then
          problem true .exists
        else created (g.disk.openForWriting path 0o666)

/-- A script gives something else than the number of a stream; only then is it seen that it
    is not well formed. -/
def noStream (g : Group) : Group :=
  (g.inFrame fun f => { f with line := f.reached }).fail "Syntax error: Bad fd number"

/-- A stream becomes the same as another one, or is closed. -/
def likeStream (g : Group) (stream : Nat) (source : Text) : Group × Bool :=
  match source with
  | [b] =>
    if b = byte '-' then
      (g.inFrame fun f => { f with descriptors := f.descriptors.close stream }, true)
    else if !isDigit b then (noStream g, false)
    else if b.toNat - 48 = stream then (g, true)
    else match g.frame.descriptors.lookup (b.toNat - 48) with
      | some k => (g.inFrame fun f => { f with descriptors := f.descriptors.lead stream k }, true)
      | none => ((g.complain ([b] ++ ": Bad file descriptor")).ending 2, false)
  | _ => (noStream g, false)

/-- A process keeps the openings that streams will lead to again. -/
def keeping (g : Group) (rs : List Redirect) : Group :=
  let old := rs.filterMap fun r => g.frame.descriptors.lookup r.stream
  g.inFrame fun f => { f with kept := old ++ f.kept }

/-- Streams lead where they did before. -/
def restored (g before : Group) (rs : List Redirect) : Group :=
  g.inFrame fun f =>
    { f with
      descriptors := f.descriptors.restore before.frame.descriptors (rs.map Redirect.stream)
      kept := before.frame.kept }

/-! ### Commands -/

structure Call where
  name : Text
  args : List Text
  /-- Functions are passed over, and failures do not end the script. -/
  guarded : Bool := false

/-- The command of a list of fields; `command` in front of it guards it. -/
def callOf : (fuel : Nat) → (guarded : Bool) → List Text → Option Call
  | 0, _, _ => none
  | _ + 1, _, [] => none
  | n + 1, guarded, name :: args =>
    let rest := args.dropWhile fun (a : Text) => a = "-p"
    let rest := if rest.head? = some "--" then rest.tail else rest
    match if name = "command" then rest else [] with
    | a :: more =>
      if a.length > 1 && a.head? = some (byte '-') then some { name, args, guarded }
      else callOf n true (a :: more)
    | [] => some { name, args, guarded }

namespace Call

def function? (c : Call) (g : Group) : Option Statement :=
  if c.guarded then none else g.frame.functions.lookup c.name

/-- Failures of the command end the script. -/
def isSpecial (c : Call) (g : Group) : Bool :=
  (c.function? g).isNone && Own.specialNames.contains c.name

/-- The command replaces the process or its streams. -/
def replaces (c : Call) (g : Group) : Bool := (c.function? g).isNone && c.name = "exec"

end Call

/-- The arguments after fields may be assignments. -/
def takesAssignments (fields : List Text) : Bool :=
  match callOf (fields.length + 1) false fields with
  | some c => Own.assigningNames.contains c.name
  | none => false

/-- How many functions may be run inside one another. -/
def callLimit : Nat := 1000

/-- What a shell is called with. -/
structure Invocation where
  options : List Char := []
  /-- The script is an argument. -/
  inline : Bool := false
  args : List Text := []

def invocation : (fuel : Nat) → Invocation → List Text → Except Text Invocation
  | 0, i, args => .ok { i with args }
  | _ + 1, i, [] => .ok i
  | n + 1, i, a :: rest =>
    match a with
    | b :: letters =>
      if b ≠ byte '-' && b ≠ byte '+' then .ok { i with args := a :: rest }
      else if letters.isEmpty || a = "--" then .ok { i with args := rest }
      else
        let cs := letters.map fun b => Char.ofNat b.toNat
        let known (c : Char) : Bool := c = 'c' || Own.optionNames.any fun o => o.2 = some c
        match cs.find? fun c => !known c && c ≠ 'o' with
        | some c => .error ("Illegal option -" ++ [byte c])
        | none =>
          let chosen := cs.filter fun c => c ≠ 'c' && c ≠ 'o'
          let named := if cs.contains 'o' then rest.take 1 else []
          match named.find? fun t => !Own.optionNames.any fun o => ofString o.1 = t with
          | some t => .error ("Illegal option -o " ++ t)
          | none =>
            let more := named.filterMap fun t =>
              (Own.optionNames.find? fun o => ofString o.1 = t).bind (·.2)
            let turned := chosen ++ more
            let others := i.options.filter fun c => !turned.contains c
            let options := if b = byte '-' then turned ++ others else others
            let inline := i.inline || (b = byte '-' && cs.contains 'c')
            invocation n { i with options, inline } (rest.drop named.length)
    | [] => .ok { i with args := a :: rest }

/-- The variables of a new shell, which knows the process that started it. -/
def firstVariables (parent : Nat) (environment : List (Text × Text)) : List (Text × Variable) :=
  let own : List (Text × Text) :=
    [("OPTIND", "1"), ("PS4", "+ "), ("PS2", "> "), ("PS1", "$ "), ("PATH", intercalate ":" searchPath),
     ("IFS", usualSeparators), ("PPID", Numeral.ofNat parent)]
  let given := environment.filter fun (x, _) => x ≠ ofString "IFS" && isName (letters x)
  given.foldl (fun vs (x, v) => Group.stored x { value := some v, exported := true } vs)
    (own.map fun (x, v) => (x, { value := some v }))

/-- A new shell knows its working directory by the path it is given, if that leads there. -/
def settled (g : Group) : Group :=
  let known := (g.assigned? "PWD").filter fun p =>
    Path.isAbsolute p && (g.disk.find true p).toOption.map (fun n => some n.1) = some g.disk.cwd
  match known.or g.disk.workingDir.toOption with
  | some p => g.recordDir p
  | none =>
    let h := (g.inFrame fun f => { f with line := 0 }).complain Group.noDirectory
    h.inFrame fun f => { f with line := g.frame.line, place := some [] }

/-- The group after foreground processes have ended: the shell says which of them were ended
    by signals, and the status is that of the last. -/
def finishing (g : Group) (pids : List Nat) : Group :=
  let own := g.exits.reverse.filter fun (p, _) => pids.contains p
  let g := own.foldl (fun g (_, e) => announce { g with signal := e.signal }) g
  let last := pids.getLast?.bind fun p => g.exits.lookup p
  (g.returned pids).ending (last.elim g.status Exit.status)

/-! ### Statements -/

mutual

/-- Waits. The process that all others are beside lets them go on meanwhile. -/
def pausing : (fuel : Nat) → Wait → Group → Group
  | 0, _, g => { g with stop := some .killed }
  | n + 1, w, g =>
    match g.path with
    | some [] => { g with blocked := some (w, g.frame :: g.above), stop := some .killed }
    | some (next :: path) => { g.enter next with path := some path, jobs := [] }.struckAfter w
    | none =>
      let round (g : Group) : Group × Bool :=
        let g := g.tidied
        match g.jobs.find? g.isDue with
        | some j => (proceeding n j g, true)
        | none =>
          let killed (t : Nat) : Group × Bool := ({ g with clock := t, stop := some .killed }, false)
          if g.isReady (g.frame :: g.above) w || g.loss?.isSome then (g, false)
          else match g.nextTime? w, g.limit with
            | some t, some l => if l ≤ t then killed (max g.clock l) else (g.atTime t, true)
            | some t, none => (g.atTime t, true)
            | none, l => killed (max g.clock (l.getD 0))
      match iterate round roundLimit g with
      | (g, true) => { g with stop := some .killed }
      | (g, false) => if g.stop.isSome then g else g.struckAfter w

/-- Lets a job go on that has something to do. -/
def proceeding : (fuel : Nat) → Job → Group → Group
  | 0, j, g => { g with jobs := g.jobs.filter (·.pid ≠ j.pid) }
  | n + 1, j, g =>
    match g.blow? j with
    | some k => g.felled j k
    | none =>
      if (g.signalsTo j.pid).any (Group.turns j) then g.turned j
      else match (g.toWorld :: j.met).reverse with
        | [] => g
        | first :: path =>
          let begun : Group :=
            { first with
              disk := { first.disk with cwd := j.dir, mask := j.mask }
              frame := j.frame, status := j.status, path := some path }
          let h := leaving n (run n j.statement begun)
          let back := g.enter h.toWorld
          let stuck (wait : Wait) (line : List Frame) : Group :=
            let left := { j with met := g.toWorld :: j.met, wait, line }
            { back with jobs := (g.jobs.map fun k => if k.pid = j.pid then left else k) ++ h.jobs }
          let ended (status : Nat) (signal : Option Nat) : Group :=
            { back with jobs := g.jobs ++ h.jobs }.ended j { status, signal }
          match h.blocked, h.stop with
          | some (wait, line), _ => stuck wait line
          | none, some .killed => stuck .signal [h.frame]
          | none, some (.signalled k) => ended (128 + k) (some k)
          | none, _ => ended (h.status % 256) none

/-- Processes that have begun get to run before another one begins. -/
def letting : (fuel : Nat) → Group → Group
  | 0, g => g
  | n + 1, g => if g.path.isNone && !g.jobs.isEmpty then pausing n (.time g.clock) g else g

/-- Waits until there is room in the pipes that were written to. -/
def easing : (fuel : Nat) → Group → Group
  | 0, g => g
  | n + 1, g =>
    match if g.stop.isSome then none else g.overfull? with
    | some k =>
      let h := pausing n (.room k) g
      if h.stop.isNone && (h.pipeAt? k).any (fun (_, p) => p.broken) then
        h.sending h.frame.self Signal.pipe
      else h
    | none => g

/-- Waits until something can be told from the input, or until no more of it can come. -/
def attending : (fuel : Nat) → (enough : Group → Bool) → Group → Group
  | 0, _, g => { g with stop := some .killed }
  | n + 1, enough, g =>
    match if g.stop.isSome || enough g then none else g.supply? 0 with
    | some (k, p) => attending n enough (pausing n (.input k p.received) g)
    | none => g

def parts : (fuel : Nat) → Manner → Word → Group → List Part × Group
  | 0, _, _, g => ([], g)
  | n + 1, m, w, g =>
    let search : Home.Search := { own := g.assigned? "HOME", assigned := m.assigned }
    (search.inWord true w).foldl (fun (ps, g) p =>
      if g.stop.isSome then (ps, g)
      else
        let (more, g) := expand n m p g
        (ps ++ more, g)) ([], g)

def expand : (fuel : Nat) → Manner → Piece → Group → List Part × Group
  | 0, _, _, g => ([], g)
  | n + 1, m, p, g =>
    match p with
    | .bare t => (if m.operand then [.loose (t.map some)] else [.whole (Pattern.bare t)], g)
    | .fixed t => ([.whole (Pattern.quoted t)], g)
    | .output body quoted =>
      let (k, h) := (letting n g).opened (.collected [])
      let h := if h.stop.isSome then h else h.inCopy false fun g =>
        leaving n (inOrder (run n) body (g.inFrame fun f =>
          { f with descriptors := f.descriptors.lead 1 k, tested := false }))
      let h := if h.stop.isNone && g.begun < h.begun then pausing n (.release k) h else h
      let h := announce h
      let t := withoutNewlines ((h.collected k).filter (· ≠ 0))
      (fromText quoted t, { h with outcome := h.status, status := g.status })
    | .number e quoted =>
      let (m, g) := marked n false e g
      if g.stop.isSome then ([], g) else numberParts g quoted (Pattern.plain m)
    | .value name shape operand quoted =>
      let value := g.parameter? name
      let isSet (orEmpty : Bool) : Bool :=
        match value with
        | some v => !(orEmpty && v.isEmpty)
        | none => false
      let itself := valueParts g m name quoted (value.getD [])
      let inner (g : Group) : List Part × Group :=
        parts n { m with operand := !quoted, assigned := false } operand g
      let cut (f : List Atom → List (Option UInt8) → List (Option UInt8)) :
          List Part × Group :=
        match value with
        | some v =>
          let (operand, g) := marked n false operand g
          (valueParts g m name quoted v (f (Pattern.atoms operand)), g)
        | none => (fromText quoted [], g)
      let unset : List Part × Group := ([], g.fail (name ++ ": parameter not set"))
      let missing := g.frame.has 'u' && value.isNone
      match shape with
      | .senseless => ([], g.fail "Bad substitution")
      | .plain => if missing then unset else (itself, g)
      | .length =>
        if missing then unset else (fromText quoted (Numeral.ofNat (value.getD []).length), g)
      | .withoutStart longest => if missing then unset else cut (Pattern.withoutStart longest)
      | .withoutEnd longest => if missing then unset else cut (Pattern.withoutEnd longest)
      | .orElse orEmpty => if isSet orEmpty then (itself, g) else inner g
      | .instead orEmpty => if isSet orEmpty then inner g else (fromText quoted [], g)
      | .assign orEmpty =>
        if isSet orEmpty then (itself, g)
        else
          let (m, g) := marked n false operand g
          let t := Pattern.plain m
          if g.stop.isSome then ([], g) else (fromText quoted t, g.set name t)
      | .required orEmpty =>
        if isSet orEmpty then (itself, g)
        else
          let (m, g) := marked n false operand g
          let why : Text :=
            if operand.isEmpty then
              (if orEmpty then "parameter not set or null" else "parameter not set")
            else Pattern.plain m
          if g.stop.isSome then ([], g) else ([], g.fail (name ++ ": " ++ why))

/-- The bytes of a word that is not cut into fields. -/
def marked : (fuel : Nat) → (assigned : Bool) → Word → Group → Pattern.Marked × Group
  | 0, _, _, g => ([], g)
  | n + 1, assigned, w, g =>
    let (ps, g) := parts n { splitting := false, assigned } w g
    (joinParts ps, g)

/-- The fields of a list of words, after fields that are known already. -/
def fields : (fuel : Nat) → List Text → List Word → Group → List Text × Group
  | 0, known, _, g => (known, g)
  | n + 1, known, ws, g =>
    ws.foldl (fun (known, g) w =>
      if g.stop.isSome then (known, g)
      else match if takesAssignments known then assignmentOf? w else none with
        | some (x, v) =>
          let (m, g) := marked n true v g
          (known ++ [x ++ "=" ++ Pattern.plain m], g)
        | none =>
          let (ps, g) := parts n {} w g
          let separators := (g.assigned? "IFS").getD usualSeparators
          let found := Fields.ofParts separators none ps
          let names := if g.frame.has 'f' then found.map Pattern.plain
            else found.flatMap (fileNames g.disk)
          (known ++ names, g)) (known, g)

/-- The assignments of a command, each shown as it is traced. -/
def assigning : (fuel : Nat) → (exported : Bool) → List (Text × Word) → Group → List Text × Group
  | 0, _, _, g => ([], g)
  | n + 1, exported, as, g =>
    as.foldl (fun (shown, g) (x, w) =>
      if g.stop.isSome then (shown, g)
      else
        let (m, g) := marked n true w g
        let t := Pattern.plain m
        let h := if g.stop.isSome then g else g.set x t
        let h := if exported && h.stop.isNone then h.mark x fun v => { v with exported := true } else h
        (shown ++ [x ++ "=" ++ t], h)) ([], g)

def traceMark : (fuel : Nat) → Group → Text × Group
  | 0, g => ([], g)
  | n + 1, g =>
    let t := (g.assigned? "PS4").getD []
    if !t.any fun b => b = byte '$' || b = byte '\x60' || b = byte '\\' then (t, g)
    else match Reading.quotedText t with
      | .error d => (t, g.complain ("Syntax error: " ++ d.text))
      | .ok w =>
        let quiet := g.inFrame fun f => { f with options := f.options.filter (· ≠ 'x') }
        let (m, h) := marked n false w quiet
        let back := { h.inFrame fun f => { f with options := g.frame.options } with status := g.status }
        if h.stop.isSome then (t, { back with stop := g.stop }) else (Pattern.plain m, back)

/-- The group with streams changed; `false` if one of them cannot be. -/
def redirected : (fuel : Nat) → List Redirect → Group → Group × Bool
  | 0, _, g => (g, false)
  | n + 1, rs, g =>
    rs.foldl (fun (g, fine) r =>
      if !fine || g.stop.isSome then (g, false)
      else match r with
        | .file stream access w =>
          let (m, g) := marked n false w g
          if g.stop.isSome then (g, false) else openFile g stream access (Pattern.plain m)
        | .like stream w =>
          let (m, g) := marked n false w g
          if g.stop.isSome then (g, false) else likeStream g stream (Pattern.plain m)
        | .document stream number =>
          let (m, g) := marked n false ((g.documents.lookup number).getD []) g
          if g.stop.isSome then (g, false)
          else (g.leading stream (.given (Pattern.plain m)), true)) (g, true)

/-- Runs a script, line by line, in the process that is there. A script that runs nothing
    succeeds. The lines of a script from a file are shown if the process is asked to. -/
def script : (fuel : Nat) → (filed : Bool) → Text → Group → Group
  | 0, _, _, g => { g with stop := some .killed }
  | n + 1, filed, t, g =>
    let step : Source × Group × Bool → (Source × Group × Bool) × Bool
      | (s, g, ran) =>
        let s := { s with
          aliases := g.frame.aliases, documents := g.documents, nextDocument := g.nextDocument }
        let shown (rest : List Char) : Group :=
          if filed && g.frame.has 'v' then
            g.write .err (textOf (s.rest.take (s.rest.length - rest.length)))
          else g
        match Reading.next s with
        | .error (d, line) =>
          let g := (shown []).inFrame fun f => { f with line }
          ((s, g.fail ("Syntax error: " ++ d.text), true), false)
        | .ok (none, s) => ((s, shown s.rest, ran), false)
        | .ok (some ss, s) =>
          let g := (shown s.rest).inFrame fun f => { f with reached := s.line }
          let g := { g with documents := s.documents, nextDocument := s.nextDocument }
          if g.frame.has 'n' then ((s, g, ran), true)
          else
            let h := inOrder (run n) ss g
            ((s, h, ran || !ss.isEmpty), h.stop.isNone)
    let text := t.filter (· ≠ 0)
    let ((_, h, ran), _) := iterate step (text.length + 2) ({ rest := letters text }, g, false)
    let h := h.inFrame fun f => { f with reached := g.frame.reached }
    if ran then h else h.ending 0

/-- Runs what is to be done at the end of a process. -/
def leaving : (fuel : Nat) → Group → Group
  | 0, g => g
  | n + 1, g =>
    let isOver := match g.stop with
      | some .killed => true
      | some (.signalled _) => true
      | some (.bereft _ _) => true
      | _ => false
    match if isOver then none else g.frame.traps.lookup 0 with
    | none => g
    | some action =>
      let h := script n false action { g.inFrame fun f =>
          { f with
            traps := f.traps.filter (·.1 ≠ 0), within := none, tested := false
            last := false } with stop := none }
      match h.stop with
      | some .exited => h
      | some .failed => h
      | some .killed => h
      | some (.signalled _) => h
      | some (.bereft _ _) => h
      | _ => { h with status := g.status, stop := g.stop }

/-- Hands signals to the process they were sent to. -/
def delivered : (fuel : Nat) → Group → Group
  | 0, g => g
  | n + 1, g =>
    let own := (g.signalsTo g.frame.self).mergeSort
    own.foldl (fun g k =>
      let isOver := match g.stop with
        | some .killed => true
        | some (.signalled _) => true
        | some (.bereft _ _) => true
        | _ => false
      if isOver then g
      else
        let g := g.received g.frame.self k
        if g.frame.ignores k then g
        else match g.frame.action? k with
          | some action =>
            let h := { g with stop := none }.goingOn (script n false action)
            if h.stop.isSome then h else { h with status := g.status, stop := g.stop }
          | none =>
            match Signal.effect k with
            | .nothing => g
            | .stops =>
              let h := pausing n .signal g
              h.received h.frame.self Signal.proceed
            | .ends => { g with stop := some (.signalled k) }) g

/-- Runs a tool, which has read a part of its input before and has written some bytes to the
    two output streams. It goes on as its input comes in. -/
def serving : (fuel : Nat) → Program → (seen : Text) → (out err : Nat) → Group → Group
  | 0, _, _, _, _, g => { g with stop := some .killed }
  | n + 1, p, seen, out, err, g =>
    let fresh := g.available 0
    match Tools.run? p.tool g.scene p.args (g.toolInput.map fun t => seen ++ t) with
    | none => (g.write .err (p.tool ++ ": not found\n")).ending 127
    | some r =>
      let r := match g.closure? 1 with
        | some e => Tools.stifled p.tool e r
        | none => r
      let (before, wanting) := Saying.untilDrained r.said
      match if wanting then g.supply? 0 else none with
      | some (k, pipe) =>
        let writes := before.map (Saying.written p.called)
        let h := (g.consume 0 fresh.length).wroteAs p.called (Group.unwritten out err writes)
        let h := easing n h
        let h := if h.stop.isSome then h else pausing n (.input k pipe.received) h
        let total (c : Channel) : Nat :=
          ((writes.filter fun (d, _) => d = c).map fun (_, t) => t.length).foldl (· + ·) 0
        if h.stop.isSome then h else serving n p (seen ++ fresh) (total .out) (total .err) h
      | none =>
        let used := fresh.length - r.input.length
        let taken := if (g.opening? 0).any fun o => o.kind = .pipe then
            min fresh.length ((used + Tools.blockSize - 1) / Tools.blockSize * Tools.blockSize)
          else used
        let h := { g.consume 0 taken with disk := r.disk, status := r.status }
        let writes := r.said.map (Saying.written p.called)
        let h := easing n (h.wroteAs p.called (Group.unwritten out err writes))
        if h.stop.isSome || r.pause = 0 then h else pausing n (.time (h.clock + r.pause)) h

/-- Runs a program that has been loaded, in the process that is there. -/
def launch : (fuel : Nat) → Program → (environment : List (Text × Text)) → Group → Group
  | 0, _, _, g => { g with stop := some .killed }
  | n + 1, p, environment, g =>
    if p.tool = environmentName then
      let bare := p.args.takeWhile fun (a : Text) => a = "-i" || a = "-"
      let words := p.args.drop bare.length
      let settings := words.takeWhile fun a => a.contains (byte '=')
      let rest := words.drop settings.length
      let setVariables := settings.foldl (fun vs a =>
        match Group.halves a with
        | (x, v) => Group.stored x (v.getD []) vs) (if bare.isEmpty then environment else [])
      match rest with
      | [] =>
        let lines := setVariables.flatMap fun (x, v) => x ++ "=" ++ v ++ "\n"
        (g.ending 0).wroteAs p.called [(.out, lines)]
      | name :: args =>
        let refused (why : Text) (status : Nat) : Group :=
          (g.write .err (p.called ++ ": " ++ Tools.inQuotes name ++ ": " ++ why ++ "\n")).ending status
        let usual : List Text := ["/bin", "/usr/bin"]
        let dirs := (setVariables.lookup (ofString "PATH")).elim usual (splitOn (byte ':'))
        let path : Option Text :=
          if name.contains Path.slash then some name
          else match Own.searchIn g.disk dirs 0 name with
            | .file path _ => some path
            | _ => none
        match path with
        | none => refused "No such file or directory" 127
        | some path =>
          match Program.load g.disk Program.interpreterDepth name path args with
          | .ok p => launch n p setVariables g
          | .error .missing => refused "No such file or directory" 127
          | .error e => refused (Tools.reason e) 126
    else if p.tool ≠ shellName then serving n p [] 0 0 (g.ending 0)
    else
      let refuse (message : Text) : Group :=
        (g.write .err (p.called ++ ": 0: " ++ message ++ "\n")).ending 2
      match invocation (p.args.length + 1) {} p.args with
      | .error e => refuse e
      | .ok i =>
        let monitored := i.options.contains 'm'
        let g := if monitored then g.write .err (p.called ++ ": 0: " ++ Own.noTerminal ++ "\n") else g
        let perform (filed : Bool) (name : Text) (args : List Text) (text : Text) (g : Group) : Group :=
          let ignored := (g.frame.traps.filter fun (k, a) => k ≠ 0 && a.isEmpty).map Prod.fst
          let frame : Frame :=
            { name, args, pid := g.frame.self, self := g.frame.self, parent := g.frame.parent
              options := i.options.filter (· ≠ 'm'), deaf := ignored ++ g.frame.deaf
              bindings := firstVariables g.frame.parent environment
              descriptors := g.frame.descriptors, limits := g.frame.limits }
          let begun := settled { g with frame, status := 0, outcome := 0, signal := none }
          leaving n (delivered n (script n filed text begun))
        if i.inline then
          match i.args with
          | [] => refuse "-c requires an argument"
          | [text] => perform false p.called [] text g
          | text :: name :: args => perform false name args text g
        else if i.args.isEmpty || i.options.contains 's' then
          let g := attending n (fun _ => false) g
          if g.stop.isSome then g
          else
            let input := g.available 0
            perform true p.called i.args input (g.consume 0 input.length)
        else match i.args with
          | [] => g
          | a :: args =>
            match g.disk.contents a with
            | .ok text => perform true a args text g
            | .error e => refuse ("cannot open " ++ a ++ ": " ++ openingProblem false e.errno)

/-- Starts the program of a name, in a process of its own or in the place of the one that is
    there. -/
def start : (fuel : Nat) → (replacing : Bool) → (name : Text) → List Text → Group → Group
  | 0, _, _, _, g => { g with stop := some .killed }
  | n + 1, replacing, name, args, g =>
    let yields := replacing || g.frame.yields
    let refused (g : Group) (why : Text) (status : Nat) : Group :=
      let h := (g.complain (name ++ ": " ++ why)).ending status
      if replacing then { h with stop := some .exited } else h
    let loaded (g : Group) (p : Program) : Group :=
      let g := if yields then g else letting n g
      let h := if g.stop.isSome then g else g.inCopy yields fun g =>
        launch n p g.environment (g.inFrame fun f => { f with kept := [] })
      if !yields then h
      else
        let h := h.inFrame fun f => { f with traps := [] }
        { h with stop := h.stop.or (some .exited) }
    let found (g : Group) (path : Text) : Group :=
      match Program.load g.disk Program.interpreterDepth name path args with
      | .ok p => loaded g p
      | .error .execFormat => loaded g ⟨shellName, name, path :: args⟩
      | .error e =>
        if e = .missing || e = .notDirectory then refused g "not found" 127
        else refused g (Tools.reason e) (if e = .tooManyLinks || e = .nameTooLong then 127 else 126)
    if name.contains Path.slash then found g name
    else match Own.search g name with
      | .file path place => found (Own.remember g name place) path
      | .denied => refused g "Permission denied" 127
      | .missing => refused g "not found" 127

/-- Runs the script in a file in the process that is there. -/
def sourcing : (fuel : Nat) → List Text → Group → Group
  | 0, _, g => { g with stop := some .killed }
  | n + 1, args, g =>
    match if args.head? = some "--" then args.tail else args with
    | [] => g.ending 0
    | name :: _ =>
      let isText (p : Text) : Bool := (g.disk.stat p).toOption.any fun (_, n) => n.isFile
      let path : Option Text :=
        if name.contains Path.slash then some name
        else ((Own.pathOf g).map fun dir => dir ++ "/" ++ name).find? isText
      match path with
      | none => g.fail (name ++ ": not found")
      | some path =>
        match g.disk.contents path with
        | .error e => g.fail ("cannot open " ++ path ++ ": " ++ openingProblem false e.errno)
        | .ok t =>
          let h := (g.inFrame fun f => { f with within := some path }).testing false
            (script n true t)
          if h.stop = some .returned then { h with stop := none } else h

/-- Waits for the end of all tasks, or of tasks given by numbers. A signal that the process
    expects ends the wait. -/
def awaiting : (fuel : Nat) → List Text → Group → Group
  | 0, _, g => g
  | n + 1, args, g =>
    let isOver (g : Group) (pids : List Nat) : Bool := pids.all fun p => (g.exits.lookup p).isSome
    let awaited (g : Group) (p : Task → Bool) : Group := g.inFrame fun f =>
      { f with tasks := f.tasks.map fun t => if p t then { t with awaited := true } else t }
    let ending (g : Group) (pids : List Nat) : Group :=
      if isOver g pids then g else pausing n (.ends pids true) g
    let interrupted (g : Group) : Group :=
      let called := (g.signalsTo g.frame.self).filter g.frame.expects
      g.ending (128 + called.getLast?.getD 0)
    Own.withOptions g "" args fun _ ops =>
      if ops.isEmpty then
        let all := g.frame.tasks.flatMap Task.pids
        let h := ending g all
        if h.stop.isSome then h
        else if isOver h all then (awaited h.reaped fun _ => true).ending 0
        else interrupted h
      else
        (ops.foldl (fun (g, more) w =>
          if g.stop.isSome || !more then (g, false)
          else
            let task : Except Group (Option Task) :=
              if w.head? = some (byte '%') then
                match Tasks.find g.frame.tasks (some w) with
                | .ok t => .ok (some t)
                | .error e => .error (g.fail e)
              else match Own.number? w with
                | none => .error (Own.illegalNumber g w)
                | some pid => .ok (g.frame.tasks.find? fun t => t.pids.getLast? = some pid)
            match task with
            | .error g => (g, false)
            | .ok none => (g, true)
            | .ok (some t) =>
              let unknown := t.pids.filter g.processes.contains
              let h := ending g t.pids
              if h.stop.isSome then (h, false)
              else if !isOver h t.pids then (interrupted h, false)
              else
                let status := (t.exit? h.exits).elim 127 Exit.status
                let h := finishing h unknown
                ((awaited h fun u => u.number = t.number).ending status, true)) (g.ending 127, true)).1

/-- Carries out a command of the shell itself. -/
def carryOut : (fuel : Nat) → Call → Group → Group
  | 0, _, g => { g with stop := some .killed }
  | n + 1, c, g =>
    let special := c.isSpecial g && !c.guarded
    let inside := g.inFrame fun f => { f with within := some c.name }
    let ahead (args : List Text) : List Text := if args.head? = some "--" then args.tail else args
    let h :=
      if c.name = "eval" then inside.goingOn (script n false (intercalate " " c.args))
      else if c.name = "." then sourcing n c.args inside
      else if c.name = "exec" then
        match ahead c.args with
        | [] => inside.ending 0
        | name :: args => start n true name args inside
      else if c.name = "wait" then awaiting n c.args inside
      else if c.name = "command" then Own.describe inside c.args
      else if c.name = "read" then
        let there := attending n (fun g => Own.lineIsThere g c.args) inside
        if there.stop.isSome then there else Own.run there c.name c.args
      else Own.run inside c.name c.args
    let h := (easing n h).inFrame fun f => { f with within := g.frame.within }
    if h.stop = some .failed && !special then { h with stop := none } else h

def perform : (fuel : Nat) → Call → Group → Group
  | 0, _, g => { g with stop := some .killed }
  | n + 1, c, g =>
    match c.function? g with
    | some body =>
      if callLimit ≤ g.frame.calls then
        g.fail ("Maximum function recursion depth (" ++ Numeral.ofNat callLimit ++ ") reached")
      else
      let h := (g.inFrame fun f =>
        { f with
          args := c.args, locals := some [], loops := 0, optionOffset := 0
          calls := f.calls + 1 }).goingOn (run n body)
      let h := h.restoring (h.frame.locals.getD [])
      let h := h.inFrame fun f =>
        { f with
          args := g.frame.args, locals := g.frame.locals, loops := g.frame.loops
          optionOffset := g.frame.optionOffset, calls := g.frame.calls }
      { h with stop := if h.stop = some .returned then none else h.stop }
    | none =>
      if Own.isOwn c.name then carryOut n c g else announce (start n false c.name c.args g)

def command : (fuel : Nat) → List (Text × Word) → List Word → List Redirect → Group → Group
  | 0, _, _, _, g => { g with stop := some .killed }
  | n + 1, assignments, words, rs, g =>
    let (fs, g) := fields n [] words { g with outcome := 0 }
    if g.stop.isSome then g
    else
      let call := callOf (fs.length + 1) false fs
      let special := call.any fun c => c.isSpecial g && !c.guarded
      let lasting := call.isNone || special
      let back (h : Group) : Group := if rs.isEmpty then h else restored h g rs
      let (h, fine) := redirected n rs g
      if h.stop.isSome then back h
      else if !fine then
        let h := back h
        if special then { h with stop := some .failed } else h
      else
        let saved := (if lasting then [] else assignments).map fun (x, _) => (x, h.binding? x)
        let exported := !lasting || call.any fun c => c.replaces g && !c.args.isEmpty
        let (shown, h) := assigning n exported assignments h
        if h.stop.isSome then back (h.restoring saved.reverse)
        else
          let h := if !h.frame.has 'x' then h
            else
              let (front, h) := traceMark n h
              match g.frame.descriptors.lookup 2 with
              | some k => h.put k (front ++ intercalate " " (shown ++ fs) ++ "\n")
              | none => h
          match call with
          | none => back (h.ending h.outcome)
          | some c =>
            if c.replaces g then perform n c h
            else
              let kept := if rs.isEmpty then h else
                h.inFrame fun f => { f with kept := (keeping g rs).frame.kept }
              back ((perform n c kept).restoring saved.reverse)

/-- Runs the first branch whose condition holds. -/
def branching : (fuel : Nat) → List (List Statement × List Statement) → Option (List Statement) →
    Group → Group
  | 0, _, _, g => { g with stop := some .killed }
  | n + 1, [], otherwise, g =>
    match otherwise with
    | some ss => inOrder (run n) ss g
    | none => g.ending 0
  | n + 1, (condition, body) :: arms, otherwise, g =>
    let h := g.testing true (inOrder (run n) condition)
    if h.stop.isSome then h
    else if h.status = 0 then inOrder (run n) body h
    else branching n arms otherwise h

/-- Runs the first arm that matches. -/
def choosing : (fuel : Nat) → List (List Word × List Statement) → Text → Group → Group
  | 0, _, _, g => { g with stop := some .killed }
  | n + 1, arms, t, g =>
    let (chosen, g) := arms.foldl (fun (chosen, g) (ws, body) =>
      if chosen.isSome then (chosen, g)
      else ws.foldl (fun (chosen, g) w =>
        if chosen.isSome || g.stop.isSome then (chosen, g)
        else
          let (m, g) := marked n false w g
          (if Pattern.matchesAll (Pattern.atoms m) t then some body else none, g)) (chosen, g))
      (none, g)
    if g.stop.isSome then g
    else match chosen with
      | some body => inOrder (run n) body (g.ending (if body.isEmpty then 0 else g.status))
      | none => g.ending 0

/-- Runs a statement, without what signals make the process do. -/
def act : (fuel : Nat) → Statement → Group → Group
  | 0, _, g => { g with stop := some .killed }
  | n + 1, s, g =>
    let at' (line : Nat) : Group := g.inFrame fun f => { f with line }
    match s with
    | .simple line assignments words rs => (command n assignments words rs (at' line)).checked
    | .block body => inOrder (run n) body g
    | .redirected line body rs =>
      let g := at' line
      let (h, fine) := redirected n rs g
      let back (h : Group) : Group := restored h g rs
      if h.stop.isSome then back h
      else if fine then
        let kept := h.inFrame fun f => { f with kept := (keeping g rs).frame.kept }
        back (kept.goingOn (run n body))
      else (back h).checked
    | .apart line body rs =>
      let yields := g.frame.yields
      let g := if yields then at' line else letting n (at' line)
      if g.stop.isSome then g
      else (announce (g.inCopy yields fun g =>
        let (h, fine) := redirected n rs g
        if fine && h.stop.isNone then leaving n (inOrder (run n) body h) else h)).checked
    | .branch arms otherwise => branching n arms otherwise g
    | .loop wanted condition body =>
      repeating wanted (inOrder (run n) condition) (inOrder (run n) body) g
    | .each line name items body =>
      let g := at' line
      let (ts, g) := match items with
        | some ws => fields n [] ws g
        | none => (g.frame.args, g)
      if g.stop.isSome then g else iterating name (inOrder (run n) body) ts g
    | .choice line subject arms =>
      let (m, g) := marked n false subject (at' line)
      if g.stop.isSome then g else choosing n arms (Pattern.plain m) g
    | .define name body =>
      (g.inFrame fun f =>
        { f with functions := (name, body) :: f.functions.filter (·.1 ≠ name) }).ending 0
    | .pipe stages =>
      let g := letting n g
      if g.stop.isSome then g
      else
        let (pids, h) := (stages.foldl Own.prepared g).forking.spawnStages id none stages
        let h := pausing n (.ends pids false) h
        if h.stop.isSome then h else (finishing h pids).checked
    | .negated s =>
      let h := g.testing true (run n s)
      if h.stop.isSome then h else h.ending (if h.status = 0 then 1 else 0)
    | .both a b =>
      let h := g.testing true (run n a)
      if h.stop.isSome || h.status ≠ 0 then h else run n b h
    | .either a b =>
      let h := g.testing true (run n a)
      if h.stop.isSome || h.status = 0 then h else run n b h
    | .aside s =>
      let stages : List Statement := match s with
        | .pipe stages => stages
        | .redirected line body rs => [.apart line [body] rs]
        | s => [s]
      let (k, h) := (stages.foldl Own.prepared g).opened (.void .reading)
      let change (f : Frame) : Frame :=
        { f with deaf := [Signal.interrupt, Signal.quit] ++ f.deaf, tested := false }
      let (pids, h) := h.spawnStages change (some k) stages
      (h.tasked pids).ending 0

def run : (fuel : Nat) → Statement → Group → Group
  | 0, _, g => { g with stop := some .killed }
  | n + 1, s, g =>
    let h := act n s g
    if h.pending.isEmpty then h else delivered n h

end

end Gauntlet.Shell
