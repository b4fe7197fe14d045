import Gauntlet.Shell.Fields
import Gauntlet.Shell.Group
import Gauntlet.Shell.Reading

/-! # The commands of the shell itself

  The commands that a shell carries out without starting anything: they read and change
  the frame of the process. A command that is misused complains and fails.
-/

namespace Gauntlet.Shell.Own

open Text

/-! ### Names -/

/-- The commands whose failures end a script. -/
def specialNames : List Text := "local" :: Reading.reservedNames

/-- The other commands that the shell carries out itself. -/
def ordinaryNames : List Text :=
  ["[", "alias", "bg", "cd", "chdir", "command", "echo", "false", "fg", "getopts", "hash", "jobs",
   "kill", "printf", "pwd", "read", "test", "true", "type", "ulimit", "umask", "unalias", "wait"]

/-- The commands whose arguments may be assignments. -/
def assigningNames : List Text := ["alias", "export", "local", "readonly"]

/-- The shell carries out the command itself. -/
def isOwn (name : Text) : Bool := specialNames.contains name || ordinaryNames.contains name

/-! ### Arguments -/

/-- A number given to a command, with blanks around it. -/
def number? (t : Text) : Option Nat :=
  (Condition.signed? Condition.isSpace Condition.isSpace t).bind fun n =>
    if 0 ≤ n && n < 0x80000000 then some n.toNat else none

def illegalNumber (g : Group) (t : Text) : Group := g.fail ("Illegal number: " ++ t)

/-- The options of a command, each with its argument if it takes one, and the operands. The
    options are given by letters; a colon follows those that take an argument. -/
def options (known : List Char) : (fuel : Nat) → List Text →
    Except Text (List (UInt8 × Text) × List Text)
  | 0, args => .ok ([], args)
  | n + 1, args =>
    match args with
    | [] => .ok ([], [])
    | a :: rest =>
      if a = "--" then .ok ([], rest)
      else match a with
        | d :: c :: more =>
          if d ≠ byte '-' then .ok ([], args)
          else
            let takes := (known.dropWhile fun k => byte k ≠ c)[1]? = some ':'
            if c = byte ':' || !(known.map byte).contains c then .error ("Illegal option -" ++ [c])
            else if takes then
              match if more.isEmpty then rest else more :: rest with
              | [] => .error ("No arg for -" ++ [c] ++ " option")
              | x :: rest => (options known n rest).map fun (os, ops) => ((c, x) :: os, ops)
            else
              let remaining := if more.isEmpty then rest else (d :: more) :: rest
              (options known n remaining).map fun (os, ops) => ((c, []) :: os, ops)
        | _ => .ok ([], args)

/-- Does something with the options and operands of a command. -/
def withOptions (g : Group) (known : String) (args : List Text)
    (act : List (UInt8 × Text) → List Text → Group) : Group :=
  match options known.toList ((args.map List.length).foldl (· + ·) args.length + 1) args with
  | .ok (os, ops) => act os ops
  | .error e => g.fail e

def given (os : List (UInt8 × Text)) (c : Char) : Bool := os.any fun o => o.1 = byte c

/-- A text in quotes that a script can read back. -/
def quotedAgain : (fuel : Nat) → Text → Text
  | 0, _ => []
  | n + 1, t =>
    let isQuote (b : UInt8) : Bool := b = byte '\''
    let body := t.takeWhile fun b => !isQuote b
    let rest := t.drop body.length
    let quotes := rest.takeWhile isQuote
    let first : Text := "'" ++ body ++ "'"
    if quotes.isEmpty then first
    else
      let second : Text := "\"" ++ quotes ++ "\""
      let tail := rest.drop quotes.length
      first ++ second ++ (if tail.isEmpty then [] else quotedAgain n tail)

def singleQuotes (t : Text) : Text := quotedAgain (t.length + 1) t

/-! ### Variables -/

/-- The variables that satisfy a predicate, each as a command that sets it. -/
def listing (g : Group) (lead : Text) (p : Variable → Bool) : Text :=
  let shown := g.frame.bindings.filter fun (_, v) => p v
  (shown.mergeSort fun a b => Text.le a.1 b.1).flatMap fun (x, v) =>
    lead ++ x ++ (match v.value with
      | some t => "=" ++ singleQuotes t
      | none => []) ++ "\n"

/-- Marks variables and sets those that come with a value. -/
def marking (g : Group) (name : Text) (flag : Variable → Variable) (has : Variable → Bool)
    (args : List Text) : Group :=
  withOptions g "p" args fun os ops =>
    if ops.isEmpty || given os 'p' then g.answer (listing g (name ++ " ") has) 0
    else ops.foldl (fun g a =>
      if g.stop.isSome then g
      else match Group.halves a with
        | (x, some v) =>
          let h := g.set x v
          if h.stop.isSome then h else h.mark x flag
        | (x, none) =>
          if isName (letters x) then g.mark x flag else g.fail (x ++ ": bad variable name"))
      (g.ending 0)

def exporting (g : Group) (args : List Text) : Group :=
  marking g "export" (fun v => { v with exported := true }) Variable.exported args

def readonly (g : Group) (args : List Text) : Group :=
  marking g "readonly" (fun v => { v with constant := true }) Variable.constant args

def makeLocals (g : Group) (args : List Text) : Group :=
  if g.frame.locals.isNone then g.fail "not in a function"
  else args.foldl (fun g a =>
    if g.stop.isSome then g
    else match Group.halves a with
      | (x, some v) => (g.makeLocal x).set x v
      | (x, none) =>
        if isName (letters x) || x = "-" then g.makeLocal x else g.fail (x ++ ": bad variable name"))
    (g.ending 0)

def unset (g : Group) (args : List Text) : Group :=
  withOptions g "vf" args fun os ops =>
    if (os.getLast?).any fun o => o.1 = byte 'f' then
      (g.inFrame fun f => { f with functions := f.functions.filter fun x => !ops.contains x.1 }).ending 0
    else ops.foldl (fun g x => if g.stop.isSome then g else g.unset x) (g.ending 0)

/-! ### Options of the shell -/

/-- The options of the shell with their letters, in the order in which they are listed. -/
def optionNames : List (String × Option Char) :=
  [("errexit", some 'e'), ("noglob", some 'f'), ("ignoreeof", some 'I'), ("interactive", some 'i'),
   ("monitor", some 'm'), ("noexec", some 'n'), ("stdin", some 's'), ("xtrace", some 'x'),
   ("verbose", some 'v'), ("vi", some 'V'), ("emacs", some 'E'), ("noclobber", some 'C'),
   ("allexport", some 'a'), ("notify", some 'b'), ("nounset", some 'u'), ("privileged", some 'p'),
   ("nolog", none), ("debug", none)]

def optionTable (g : Group) (asCommands : Bool) : Text :=
  let isOn (c : Option Char) : Bool := c.any g.frame.has
  let lines := optionNames.flatMap fun (n, c) =>
    if asCommands then
      ofString ("set " ++ (if isOn c then "-" else "+") ++ "o " ++ n ++ "\n")
    else
      ofString n ++ spaces (16 - n.length) ++ ofString (if isOn c then "on\n" else "off\n")
  if asCommands then lines else "Current option settings\n" ++ lines

/-- Why processes are not kept apart in groups of their own. -/
def noTerminal : Text := "can't access tty; job control turned off"

/-- Sets or clears an option given by its letter. -/
def turning (g : Group) (on : Bool) (c : Char) : Group :=
  if on && c = 'm' then g.complain noTerminal
  else if optionNames.any fun (_, k) => k = some c then
    g.inFrame fun f =>
      let others := f.options.filter (· ≠ c)
      { f with options := if on then c :: others else others }
  else g.fail ("Illegal option -" ++ [byte c])

/-- Sets or clears an option given by its name. -/
def turningNamed (g : Group) (on : Bool) (name : Text) : Group :=
  match optionNames.find? fun (n, _) => ofString n = name with
  | some (_, some c) => turning g on c
  | some (_, none) => g
  | none => g.fail ("Illegal option -o " ++ name)

/-- Sets the options of one word, and those named after it; gives the words that are left. -/
def turningWord (g : Group) (on : Bool) : Text → List Text → Group × List Text
  | [], rest => (g, rest)
  | b :: letters, rest =>
    if g.stop.isSome then (g, rest)
    else if b = byte 'o' then
      match rest with
      | name :: rest => turningWord (turningNamed g on name) on letters rest
      | [] => turningWord (g.answer (optionTable g !on) 0) on letters []
    else turningWord (turning g on (Char.ofNat b.toNat)) on letters rest

def setting : (fuel : Nat) → Group → List Text → Group
  | 0, g, _ => g
  | _ + 1, g, [] => g
  | n + 1, g, a :: rest =>
    let given (args : List Text) : Group := g.inFrame fun f => { f with args, optionOffset := 0 }
    match a with
    | b :: letters =>
      let on := b = byte '-'
      if a = "--" then given rest
      else if a = "-" then
        let h := g.inFrame fun f => { f with options := f.options.filter fun c => c ≠ 'x' && c ≠ 'v' }
        if rest.isEmpty then h else h.inFrame fun f => { f with args := rest }
      else if on || b = byte '+' then
        let (h, rest) := turningWord g on letters rest
        if h.stop.isSome then h else setting n h rest
      else given (a :: rest)
    | [] => given (a :: rest)

/-- Sets options and arguments, or lists the variables. -/
def set (g : Group) (args : List Text) : Group :=
  if args.isEmpty then g.answer (listing g [] fun v => v.value.isSome) 0
  else setting (args.length + 1) (g.ending 0) args

/-! ### Arguments -/

def shift (g : Group) (args : List Text) : Group :=
  match args with
  | [] => drop 1
  | a :: _ =>
    match number? a with
    | some k => drop k
    | none => illegalNumber g a
where
  drop (k : Nat) : Group :=
    if g.frame.args.length < k then g.fail "can't shift that many"
    else (g.inFrame fun f => { f with args := f.args.drop k, optionOffset := 0 }).ending 0

/-- What the next option of a list of words is. -/
structure NextOption where
  letter : UInt8
  argument : Option Text
  complaint : Option Text := none
  /-- The number of the next word, counted from one. -/
  index : Nat
  /-- How much of the word before it has been looked at. -/
  offset : Nat
  done : Bool := false

def nextOption (known : Text) (words : List Text) (index offset : Nat) : NextOption :=
  let present : Text := match index with
    | k + 2 => if offset = 0 then [] else ((words[k]?).getD []).drop offset
    | _ => []
  let ended (index : Nat) : NextOption := { letter := byte '?', argument := none, index, offset := 0, done := true }
  let word := (words[index - 1]?).getD []
  let fresh := present.isEmpty
  if fresh && (word.length < 2 || word.head? ≠ some (byte '-')) then ended index
  else if fresh && word = "--" then ended (index + 1)
  else
    let body := if fresh then word.drop 1 else present
    let index := if fresh then index + 1 else index
    let current := if fresh then word else (words[index - 2]?).getD []
    match body with
    | [] => ended index
    | c :: more =>
      let offset := current.length - more.length
      let quiet := known.head? = some (byte ':')
      let place := known.dropWhile (· ≠ c)
      if c = byte ':' || place.isEmpty then
        { letter := byte '?', argument := if quiet then some [c] else none,
          complaint := if quiet then none else some ("Illegal option -" ++ [c] ++ "\n"), index, offset }
      else if place[1]? ≠ some (byte ':') then { letter := c, argument := some [], index, offset }
      else if !more.isEmpty then { letter := c, argument := some more, index, offset := 0 }
      else match words[index - 1]? with
        | some x => { letter := c, argument := some x, index := index + 1, offset := 0 }
        | none =>
          { letter := if quiet then byte ':' else byte '?'
            argument := if quiet then some [c] else none
            complaint := if quiet then none else some ("No arg for -" ++ [c] ++ " option\n")
            index, offset }

/-- Gives a script its options one by one. -/
def getopts (g : Group) (args : List Text) : Group :=
  match args with
  | known :: name :: rest =>
    let words := if rest.isEmpty then g.frame.args else rest
    let wanted := ((g.assigned? "OPTIND").bind number?).getD 1
    let within := 0 < wanted && wanted ≤ words.length + 1
    let index := if within then wanted else 1
    let r := nextOption known words index (if within then g.frame.optionOffset else 0)
    let g := match r.complaint with
      | some t => g.write .err t
      | none => g
    let g := if r.done then g
      else match r.argument with
        | some t => g.set "OPTARG" t
        | none => g.unset "OPTARG"
    let g := (g.set "OPTIND" (Numeral.ofNat r.index)).set name [r.letter]
    if g.stop.isSome then g
    else (g.inFrame fun f => { f with optionOffset := r.offset }).ending (if r.done then 1 else 0)
  | _ => g.fail "Usage: getopts optstring var [arg...]"

/-! ### Reading -/

/-- A line of input, with marks on the bytes after a backslash, how many bytes it takes,
    and whether it is complete. A backslash also joins lines, which leaves a marked line break
    between them, unless it is taken as it is. -/
def inputLine (raw : Bool) : (input : Text) → (taken : Nat) → Pattern.Marked × Nat × Bool
  | [], taken => ([], taken, false)
  | [b], taken =>
    if b = 10 then ([], taken + 1, true)
    else if b = byte '\\' && !raw then ([], taken + 1, false)
    else ([(b, false)], taken + 1, false)
  | b :: c :: t, taken =>
    if b = 10 then ([], taken + 1, true)
    else if b = byte '\\' && !raw then
      let (m, k, found) := inputLine raw t (taken + 2)
      ((c, true) :: m, k, found)
    else
      let (m, k, found) := inputLine raw (c :: t) (taken + 1)
      ((b, false) :: m, k, found)

/-- The parts of a line of input: bytes after a backslash stay as they are, and separators do
    not run on from one line to the next that is joined to it. -/
def lineParts : Pattern.Marked → List Part
  | [] => []
  | (b, true) :: m => (if b = 10 then .loose [] else .whole [(b, true)]) :: lineParts m
  | (b, false) :: m =>
    match lineParts m with
    | .loose t :: ps => .loose (some b :: t) :: ps
    | ps => .loose [some b] :: ps

/-- A line can be read, as far as a process can tell from the input that is there. -/
def lineIsThere (g : Group) (args : List Text) : Bool :=
  let raw := match options "p:r".toList (args.length * 2 + 1) args with
    | .ok (os, _) => given os 'r'
    | .error _ => true
  (inputLine raw (g.available 0) 0).2.2

/-- Reads a line into variables; the last one gets what is left over. -/
def read (g : Group) (args : List Text) : Group :=
  withOptions g "p:r" args fun os names =>
    if names.isEmpty then g.fail "arg count"
    else
      let (m, taken, found) := inputLine (given os 'r') (g.available 0) 0
      let g := g.consume 0 taken
      let separators := (g.assigned? "IFS").getD usualSeparators
      let ws := Fields.ofParts separators (some names.length) (lineParts (m.filter (·.1 ≠ 0)))
      let values := names.zipIdx.map fun (x, k) => (x, (ws[k]?.map Pattern.plain).getD [])
      values.foldl (fun g (x, v) => if g.stop.isSome then g else g.set x v)
        (g.ending (if found then 0 else 1))

/-! ### The working directory -/

/-- The working directory can be changed to a path. -/
def enter? (d : Disk) (p : Text) : Option Disk :=
  match d.find true p with
  | .ok (l, .dir mode t) =>
    if (Node.dir mode t).executable then some { d with cwd := some l } else none
  | _ => none

/-- The directory of a path that may be looked for in other directories, and whether it is
    to be shown. -/
def candidate (g : Group) (dest : Text) : Text × Bool :=
  let dest : Text := if dest.isEmpty then "." else dest
  let first := (splitOn Path.slash dest).headD []
  if Path.isAbsolute dest || first = "." || first = ".." then (dest, false)
  else
    let dirs := (g.assigned? "CDPATH").elim [] (splitOn (byte ':'))
    let found := dirs.find? fun dir =>
      Tools.isDirectory g.disk (if dir.isEmpty then dest else dir ++ "/" ++ dest)
    match found with
    | some dir => if dir.isEmpty then (dest, false) else (dir ++ "/" ++ dest, true)
    | none => (dest, false)

def cd (g : Group) (args : List Text) : Group :=
  withOptions g "LP" args fun os ops =>
    let physical := (os.getLast?).any fun o => o.1 = byte 'P'
    let back := ops.head? = some "-"
    let dest : Text := match ops with
      | [] => (g.assigned? "HOME").getD []
      | a :: _ => if back then (g.assigned? "OLDPWD").getD [] else a
    let (path, shown) := candidate g dest
    let before := g.currentDir
    let target := if physical then path else Path.anchor before path
    match enter? g.disk target with
    | none => g.fail ("can't cd to " ++ (if dest.isEmpty then Text.single '.' else dest))
    | some disk =>
      let g := ({ g with disk } : Group).inFrame fun f =>
        { f with known := f.known.map fun k => { k with stale := true } }
      let now := if physical then disk.workingDir.toOption.getD [] else target
      let g := (g.put? "OLDPWD" (some { value := some before, exported := true })).recordDir now
      g.answer (if back || shown then now ++ "\n" else []) 0

def pwd (g : Group) (args : List Text) : Group :=
  withOptions g "LP" args fun os _ =>
    let physical := (os.getLast?).any fun o => o.1 = byte 'P'
    let found := g.disk.workingDir.toOption
    let g := if physical && found.isNone then g.complain Group.noDirectory else g
    g.answer ((if physical then found.getD [] else g.currentDir) ++ "\n") 0

def permissionLetters (bits : Nat) : Text :=
  let letter (on : Bool) (c : Char) : Text := if on then Text.single c else []
  letter (bits / 4 % 2 = 1) 'r' ++ letter (bits / 2 % 2 = 1) 'w' ++ letter (bits % 2 = 1) 'x'

def umask (g : Group) (args : List Text) : Group :=
  withOptions g "S" args fun os ops =>
    let kept := 0o777 - g.disk.mask &&& 0o777
    match ops with
    | [] =>
      let digits := Numeral.octal g.disk.mask
      let plain : Text := repeated 48 (4 - digits.length) ++ digits
      let symbolic : Text := "u=" ++ permissionLetters (kept / 64) ++ ",g=" ++
        permissionLetters (kept / 8) ++ ",o=" ++ permissionLetters kept
      g.answer ((if os.isEmpty then plain else symbolic) ++ "\n") 0
    | a :: _ =>
      if a.head?.any isDigit then
        if a.all fun b => 48 ≤ b && b ≤ 55 then
          let mask := (a.foldl (fun n b => n * 8 + (b.toNat - 48)) 0) &&& 0o777
          { g with disk := { g.disk with mask }, status := 0 }
        else illegalNumber g a
      else match Tools.changedMode? 0 a kept with
        | some mode => { g with disk := { g.disk with mask := 0o777 - (mode &&& 0o777) }, status := 0 }
        | none => g.fail ("Illegal mode: " ++ a)

/-! ### Signals -/

/-- Sets, removes or lists what is done on signals. -/
def trap (g : Group) (args : List Text) : Group :=
  withOptions g "" args fun _ ops =>
    match ops with
    | [] =>
      let lines := (g.frame.traps.mergeSort fun a b => a.1 ≤ b.1).flatMap fun (n, t) =>
        "trap -- " ++ singleQuotes t ++ " " ++ Signal.nameOf n ++ "\n"
      g.answer lines 0
    | a :: rest =>
      let bare := rest.isEmpty || (!a.isEmpty && a.all isDigit && (Signal.number? 0 a).isSome)
      let action : Option Text := if bare || a = "-" then none else some a
      set action (if bare then ops else rest) (g.ending 0)
where
  /-- Sets what is done on some signals. -/
  set (action : Option Text) : List Text → Group → Group
    | [], g => g
    | c :: cs, g =>
      match Signal.number? 0 c with
      | none => (g.write .err ("trap: " ++ c ++ ": bad trap\n")).ending 1
      | some n =>
        set action cs (g.inFrame fun f =>
          { f with traps := action.toList.map (n, ·) ++ f.traps.filter (·.1 ≠ n) })

def killUsage : Text :=
  "Usage: kill [-s sigspec | -signum | -sigspec] [pid | job]... or\nkill -l [exitstatus]"

/-- Sends a signal to a process or to all of the group; what is not of the group is not
    there, and a task has no group of its own. -/
def send (n : Nat) (g : Group) (p : Text) : Group :=
  let reaching (pids : List Nat) : Group :=
    let alive := pids.filter fun p => (g.exits.lookup p).isNone
    if pids.isEmpty then (g.complain "No such process\n").ending 1
    else if n = 0 then g
    else alive.foldl (fun g p => g.sending p n) g
  if g.stop.isSome then g
  else if p.head? = some (byte '%') then
    match Tasks.find g.frame.tasks (some p) with
    | .ok _ => reaching []
    | .error e => g.fail e
  else
    let (whole, digits) := if p.head? = some (byte '-') then (true, p.drop 1) else (false, p)
    match number? digits with
    | none => illegalNumber g digits
    | some pid =>
      if pid = 0 || (whole && pid = leader) then reaching g.processes
      else reaching (if g.processes.contains pid && !whole then [pid] else [])

/-- Sends a signal to processes given by number, or lists the signals. -/
def kill (g : Group) (args : List Text) : Group :=
  let sending (n : Nat) (pids : List Text) : Group :=
    if pids.isEmpty then g.fail killUsage else pids.foldl (send n) (g.ending 0)
  match args with
  | [] => g.fail killUsage
  | a :: rest =>
    if a.head? ≠ some (byte '-') then sending Signal.usual args
    else match Signal.number? 1 (a.drop 1) with
      | some n => sending n rest
      | none =>
        withOptions g "ls:" args fun os ops =>
          match (os.filter fun o => o.1 = byte 's').getLast? with
          | some (_, name) =>
            match Signal.number? 1 name with
            | some n => if given os 'l' then g.fail killUsage else sending n ops
            | none => g.fail ("invalid signal number or name: " ++ name)
          | none =>
            if !given os 'l' then sending Signal.usual ops
            else match ops with
              | [] =>
                let names := (List.range Signal.bound).map fun n =>
                  if n = 0 then Text.single '0' else Signal.nameOf n
                g.answer (names.flatMap fun t => t ++ [byte '\n']) 0
              | t :: _ =>
                match number? t with
                | none => illegalNumber g t
                | some n =>
                  let n := if 128 < n then n - 128 else n
                  if 0 < n && n < Signal.bound then g.answer (Signal.nameOf n ++ "\n") 0
                  else g.fail ("invalid signal number or exit status: " ++ t)

/-! ### Commands -/

/-- What the search for a program leads to. -/
inductive Found where
  /-- A file in the directory of a number. -/
  | file (path : Text) (place : Nat)
  | denied
  | missing

/-- The directories in which a process looks for programs. -/
def pathOf (g : Group) : List Text := (g.assigned? "PATH").elim searchPath (splitOn (byte ':'))

def inDirectory (dir name : Text) : Text := if dir.isEmpty then name else dir ++ "/" ++ name

/-- The file of a program without a slash in its name, in directories from a number on. -/
def searchIn (d : Disk) (dirs : List Text) (first : Nat) (name : Text) : Found :=
  let paths := (dirs.zipIdx.drop first).map fun (dir, k) => (inDirectory dir name, k)
  let seen := paths.filterMap fun (p, k) => (d.find true p).toOption.map fun n => (p, k, n.2)
  match seen.find? fun (_, _, n) => n.isFile && n.executable with
  | some (p, k, _) => .file p k
  | none => if seen.isEmpty then .missing else .denied

/-- The entry of a program that has been found before. -/
def known? (g : Group) (name : Text) : Option KnownProgram := g.frame.known.find? fun k => k.name = name

/-- The file of a program without a slash in its name; one that has been found before is not
    looked for in earlier directories. -/
def search (g : Group) (name : Text) : Found :=
  let first := ((known? g name).filter fun k => !k.stale).elim 0 KnownProgram.place
  searchIn g.disk (pathOf g) first name

def remember (g : Group) (name : Text) (place : Nat) : Group :=
  let entry : KnownProgram := { name, place }
  g.inFrame fun f =>
    { f with known :=
        if f.known.any fun k => k.name = name then f.known.map fun k => if k.name = name then entry else k
        else f.known ++ [entry] }

/-- Looks for the program of a name and remembers where it is; gives its path. -/
def lookUp (g : Group) (name : Text) : Option Text × Group :=
  if name.contains Path.slash then
    (if (g.disk.stat name).toOption.isSome then some name else none, g)
  else match search g name with
    | .file p k => (some p, remember g name k)
    | _ => (none, g)

/-- Remembers the program that a stage of a pipeline names outright. -/
def prepared (g : Group) (s : Statement) : Group :=
  match s with
  | .simple _ _ ([.bare name] :: _) _ =>
    if (g.frame.functions.lookup name).isSome || isOwn name || !isName (letters name) then g
    else (lookUp g name).2
  | _ => g

/-- Tells what a command is. -/
def tell (g : Group) (name : Text) : Group :=
  let say (t : Text) : Group := g.answer (name ++ t ++ "\n") g.status
  if Token.keywords.any fun k => ofString k = name then say " is a shell keyword"
  else match g.frame.aliases.lookup name with
    | some t => say (" is an alias for " ++ t)
    | none =>
      if (g.frame.functions.lookup name).isSome then say " is a shell function"
      else if specialNames.contains name then say " is a special shell builtin"
      else if ordinaryNames.contains name then say " is a shell builtin"
      else match known? g name with
        | some k => say (" is a tracked alias for " ++ inDirectory ((pathOf g).getD k.place []) name)
        | none =>
          match lookUp g name with
          | (some p, g) => g.answer (name ++ " is " ++ p ++ "\n") g.status
          | (none, g) => g.answer (name ++ ": not found\n") 127

def locate (g : Group) (name : Text) : Group :=
  let say (t : Text) : Group := g.answer (t ++ "\n") 0
  if Token.keywords.any fun k => ofString k = name then say name
  else match g.frame.aliases.lookup name with
    | some t => say ("alias " ++ name ++ "=" ++ singleQuotes t)
    | none =>
      if (g.frame.functions.lookup name).isSome || isOwn name then say name
      else match known? g name with
        | some k => say (inDirectory ((pathOf g).getD k.place []) name)
        | none =>
          match lookUp g name with
          | (some p, g) => g.answer (p ++ "\n") 0
          | (none, g) => g.ending 127

/-- Tells what a command is, in short or in full. -/
def describe (g : Group) (args : List Text) : Group :=
  withOptions g "pvV" args fun os ops =>
    match ops with
    | [] => g.ending 0
    | name :: _ =>
      if given os 'v' then locate (g.ending 0) name
      else if given os 'V' then tell (g.ending 0) name
      else g.ending 0

/-- The number of slots of the table of words that stand for other text. -/
def aliasSlots : Nat := 39

/-- Sets or shows words that stand for other text. -/
def aliasing (g : Group) (args : List Text) : Group :=
  let line (x t : Text) : Text := x ++ "=" ++ singleQuotes t ++ "\n"
  if args.isEmpty then
    g.answer ((tabled aliasSlots Prod.fst g.frame.aliases).flatMap fun (x, t) => line x t) 0
  else args.foldl (fun g a =>
    match Group.halves a with
    | (x, some t) => g.inFrame fun f => { f with aliases := Group.stored x t f.aliases }
    | (x, none) =>
      match g.frame.aliases.lookup x with
      | some t => g.answer (line x t) g.status
      | none => (g.write .err ("alias: " ++ x ++ " not found\n")).ending 1) (g.ending 0)

def unalias (g : Group) (args : List Text) : Group :=
  withOptions g "a" args fun os ops =>
    if given os 'a' then (g.inFrame fun f => { f with aliases := [] }).ending 0
    else ops.foldl (fun g x =>
      if (g.frame.aliases.lookup x).isSome then
        g.inFrame fun f => { f with aliases := f.aliases.filter (·.1 ≠ x) }
      else (g.write .err ("unalias: " ++ x ++ " not found\n")).ending 1) (g.ending 0)

/-- Ends something with the status given or the present one. -/
def ended (g : Group) (stop : Stop) (args : List Text) : Group :=
  match args with
  | [] => { g with stop := some stop }
  | a :: _ =>
    match number? a with
    | some n => { g with status := n, stop := some stop }
    | none => illegalNumber g a

/-- Leaves or continues loops; outside of loops nothing is done. -/
def leave (g : Group) (stop : Nat → Stop) (args : List Text) : Group :=
  let out (levels : Nat) : Group :=
    match min levels g.frame.loops with
    | 0 => g.ending 0
    | k + 1 => { g with status := 0, stop := some (stop k) }
  match args with
  | [] => out 1
  | a :: _ =>
    match number? a with
    | some (k + 1) => out (k + 1)
    | _ => illegalNumber g a

def printf (g : Group) (args : List Text) : Group :=
  withOptions g "" args fun _ ops =>
    match ops with
    | [] => g.fail "usage: printf format [arg ...]"
    | format :: rest =>
      let p := Printing.through .command format rest
      let g := p.problems.foldl Group.complain g
      g.answer p.out (if p.senseless then 2 else if p.failed then 1 else 0)

def test (g : Group) (args : List Text) : Group :=
  match Condition.value g.scene args with
  | .ok v => g.ending (if v then 0 else 1)
  | .error m => g.fail m

/-- Tests a condition that a bracket has to follow. -/
def bracket (g : Group) (args : List Text) : Group :=
  if args.getLast? = some "]" then test g args.dropLast else g.fail "missing ]"

/-! ### Tables and tasks -/

def programSlots : Nat := 31

/-- Looks for programs, forgets those that were found, or lists them. -/
def hash (g : Group) (args : List Text) : Group :=
  withOptions g "r" args fun os ops =>
    if given os 'r' then (g.inFrame fun f => { f with known := [] }).ending 0
    else if ops.isEmpty then
      let lines := (tabled programSlots KnownProgram.name g.frame.known).flatMap fun k =>
        inDirectory ((pathOf g).getD k.place []) k.name ++ (if k.stale then [byte '*', 10] else [10])
      g.answer lines 0
    else ops.foldl (fun g name =>
      if name.contains Path.slash || (g.frame.functions.lookup name).isSome || isOwn name then g
      else
        let g := g.inFrame fun f => { f with known := f.known.filter fun k => k.name ≠ name }
        match lookUp g name with
        | (some _, g) => g
        | (none, g) => (g.complain (name ++ ": not found")).ending 1) (g.ending 0)

def jobs (g : Group) (args : List Text) : Group :=
  withOptions g "lp" args fun os ops =>
    let form : Tasks.Form := match (os.getLast?).map Prod.fst with
      | some c => if c = byte 'p' then .numberOnly else .full
      | none => .plain
    let g := g.reaped
    let listing (g : Group) (ts : List Task) : Group :=
      let (t, tasks) := Tasks.list form g.exits g.frame.tasks ts
      (g.inFrame fun f => { f with tasks }).answer t 0
    if ops.isEmpty then listing g g.frame.tasks
    else ops.foldl (fun g w =>
      if g.stop.isSome then g
      else match Tasks.find g.frame.tasks (some w) with
        | .ok t => listing g [t]
        | .error e => g.fail e) (g.ending 0)

/-- Takes up tasks, which none of them allows. -/
def resume (g : Group) (args : List Text) : Group :=
  withOptions g "" args fun _ ops =>
    match Tasks.find g.frame.tasks ops.head? with
    | .ok _ =>
      let named : Text := ops.head?.getD "(null)"
      g.fail ("job " ++ named ++ " not created under job control")
    | .error e => g.fail e

/-- Shows the time that was used, which is less than can be shown. -/
def times (g : Group) : Group := g.answer "0m0.000000s 0m0.000000s\n0m0.000000s 0m0.000000s\n" 0

def ulimit (g : Group) (args : List Text) : Group :=
  withOptions g "HSatfdscmlpnvwr" args fun os ops =>
    let isBound (c : UInt8) : Bool := c = byte 'H' || c = byte 'S'
    let bound := ((os.filter fun o => isBound o.1).getLast?).map Prod.fst
    let bounds : Bounds := { soft := bound ≠ some (byte 'H'), hard := bound ≠ some (byte 'S') }
    let what := (os.filter fun o => !isBound o.1 && o.1 ≠ byte 'a').getLast?.elim 'f' fun o =>
      Char.ofNat o.1.toNat
    match Limits.resources.find? fun r => r.letter = what with
    | none => g
    | some r =>
      match ops with
      | [] =>
        g.answer (if given os 'a' then g.frame.limits.table bounds else g.frame.limits.shown bounds r) 0
      | v :: more =>
        if given os 'a' || !more.isEmpty then g.fail "too many arguments"
        else if v ≠ "unlimited" && !v.all isDigit then g.fail "bad number"
        else
          let value : Option Nat := if v = "unlimited" then none
            else some (Numeral.value v * r.unit)
          match g.frame.limits.change bounds r value with
          | .ok limits => (g.inFrame fun f => { f with limits }).ending 0
          | .error e => g.fail e

/-- Carries out a command that starts nothing. -/
def run (g : Group) (name : Text) (args : List Text) : Group :=
  if name = ":" then g.ending 0
  else if name = "exit" then ended g .exited args
  else if name = "return" then ended g .returned args
  else if name = "break" then leave g .broke args
  else if name = "continue" then leave g .continued args
  else if name = "export" then exporting g args
  else if name = "readonly" then readonly g args
  else if name = "local" then makeLocals g args
  else if name = "unset" then unset g args
  else if name = "set" then set g args
  else if name = "shift" then shift g args
  else if name = "getopts" then getopts g args
  else if name = "read" then read g args
  else if name = "cd" || name = "chdir" then cd g args
  else if name = "pwd" then pwd g args
  else if name = "umask" then umask g args
  else if name = "trap" then trap g args
  else if name = "kill" then kill g args
  else if name = "type" then args.foldl tell (g.ending 0)
  else if name = "alias" then aliasing g args
  else if name = "unalias" then unalias g args
  else if name = "echo" then g.answer (Printing.line args) 0
  else if name = "printf" then printf g args
  else if name = "hash" then hash g args
  else if name = "jobs" then jobs g args
  else if name = "fg" || name = "bg" then resume g args
  else if name = "times" then times g
  else if name = "ulimit" then ulimit g args
  else if name = "test" then test g args
  else if name = "[" then bracket g args
  else if name = "false" then g.ending 1
  else g.ending 0

end Gauntlet.Shell.Own
