import Gauntlet.Disk.Directory
import Gauntlet.Numeral
import Gauntlet.Terminal

/-! # Tools

  A tool gets its arguments and its input; it answers with its output, an exit status, the
  disk it leaves behind and the time it took. Here stands what all tools have in common:
  how they word complaints, how they quote names, and how they read their options.
-/

namespace Gauntlet.Shell

/-- What a tool says. -/
inductive Saying where
  | output (t : Text)
  /-- A complaint, which names the tool first. -/
  | complaint (t : Text)
  /-- Where to find help. -/
  | hint
  /-- Other words on the stream for complaints. -/
  | remark (t : Text)
  /-- Nothing: it has read all of its input and wants more. -/
  | drained

/-- What a tool of a name writes when it says something. -/
def Saying.written (tool : Text) : Saying → Channel × Text
  | output t => (.out, t)
  | complaint t => (.err, tool ++ ": " ++ t ++ "\n")
  | hint => (.err, "Try '" ++ tool ++ " --help' for more information.\n")
  | remark t => (.err, t)
  | drained => (.out, [])

/-- What is said before the input is used up, and whether that happens. -/
def Saying.untilDrained : List Saying → List Saying × Bool
  | [] => ([], false)
  | drained :: _ => ([], true)
  | s :: rest =>
    let (before, more) := untilDrained rest
    (s :: before, more)

structure ToolResult where
  disk : Disk
  status : Nat := 0
  /-- What it said, in order. -/
  said : List Saying := []
  /-- The time it waited, in nanoseconds. -/
  pause : Nat := 0
  /-- What is left of the input. -/
  input : Text := []

/-- Something is written to the output. -/
def Saying.isOutput : Saying → Bool
  | output t => !t.isEmpty
  | _ => false

namespace Tools

open Text

/-! ### Quoting -/

def isShown (b : UInt8) : Bool := 32 ≤ b && b ≤ 126

/-- The escape of a byte that is not shown. -/
def hidden (b : UInt8) : Text :=
  match b with
  | 7 => "\\a"
  | 8 => "\\b"
  | 9 => "\\t"
  | 10 => "\\n"
  | 11 => "\\v"
  | 12 => "\\f"
  | 13 => "\\r"
  | _ =>
    let n := b.toNat
    "\\" ++ Numeral.ofNat (n / 64) ++ Numeral.ofNat (n / 8 % 8) ++ Numeral.ofNat (n % 8)

/-- The inside of a quoted name; bytes that are not shown have quotes of their own. -/
def insideQuotes : (escaping : Bool) → Text → Text
  | false, [] => []
  | true, [] => []
  | false, b :: t =>
    if !isShown b then "'$'" ++ hidden b ++ insideQuotes true t
    else if b = byte '\'' then "'\\''" ++ insideQuotes false t
    else b :: insideQuotes false t
  | true, b :: t =>
    if !isShown b then hidden b ++ insideQuotes true t
    else if b = byte '\'' then "'\\''" ++ insideQuotes false t
    else "''" ++ b :: insideQuotes false t

/-- A byte that means something to a shell even between double quotes, or might. -/
def isTelling (b : UInt8) : Bool := ("!\"$&()*;<=>[^\\\x60|?\x7b\x7d#~".toList.map byte).contains b

def inQuotes (t : Text) : Text :=
  if t.contains (byte '\'') && t.all (fun b => isShown b && !isTelling b) then "\"" ++ t ++ "\""
  else "'" ++ insideQuotes false t ++ "'"

/-- A name, in quotes only if a shell would treat it in a special way. -/
def quotedIfSpecial (t : Text) : Text :=
  let plain (b : UInt8) : Bool :=
    isLetter b || isDigit b || ("%+,-./:@]_".toList.map byte).contains b
  let later (b : UInt8) : Bool := plain b || ("#~\x7b\x7d".toList.map byte).contains b
  match t with
  | [] => "''"
  | b :: rest =>
    if (plain b || (!rest.isEmpty && ("\x7b\x7d".toList.map byte).contains b)) && rest.all later then t
    else inQuotes t

/-- A word of the user in quotes. -/
def quoted (t : Text) : Text :=
  "'" ++ t.flatMap (fun b =>
    if !isShown b then hidden b
    else if b = byte '\'' || b = byte '\\' then [byte '\\', b]
    else [b]) ++ "'"

/-! ### Wording -/

def reason : Errno → Text
  | .missing => "No such file or directory"
  | .notDirectory => "Not a directory"
  | .isDirectory => "Is a directory"
  | .exists => "File exists"
  | .denied => "Permission denied"
  | .nameTooLong => "File name too long"
  | .tooManyLinks => "Too many levels of symbolic links"
  | .invalid => "Invalid argument"
  | .notEmpty => "Directory not empty"
  | .busy => "Device or resource busy"
  | .execFormat => "Exec format error"
  | .badStream => "Bad file descriptor"
  | .noSpace => "No space left on device"

/-- A tool that was called in a wrong way. -/
def misused (d : Disk) (message : Text) : ToolResult :=
  { disk := d, status := 1, said := [.complaint message, .hint] }

/-! ### Options -/

/-- The options that a tool knows. -/
structure Known where
  /-- Letters that stand alone. -/
  letters : List Char := []
  /-- Letters with a value after them. -/
  valued : List Char := []
  names : List (String × Char) := []
  /-- Options stand before all other arguments. -/
  leading : Bool := false

/-- Options with their values, and the other arguments. -/
structure Options where
  given : List (Char × Text) := []
  operands : List Text := []

namespace Options

def has (o : Options) (c : Char) : Bool := o.given.any fun (k, _) => k = c

def value? (o : Options) (c : Char) : Option Text :=
  (o.given.reverse.find? fun (k, _) => k = c).map (·.2)

/-- With one more option in front. -/
def adding (c : Char) (v : Text) (o : Options) : Options := { o with given := (c, v) :: o.given }

end Options

/-- The letters of a cluster with their values; a value may be the argument that follows,
    which is then used up. -/
def cluster (k : Known) : Text → List Text → Except Text (List (Char × Text) × List Text)
  | [], rest => .ok ([], rest)
  | b :: t, rest =>
    let c := Char.ofNat b.toNat
    if k.letters.contains c then
      (cluster k t rest).map fun (os, rest) => ((c, []) :: os, rest)
    else if k.valued.contains c then
      if !t.isEmpty then .ok ([(c, t)], rest)
      else match rest with
        | v :: rest => .ok ([(c, v)], rest)
        | [] => .error ("option requires an argument -- '" ++ [b] ++ "'")
    else .error ("invalid option -- '" ++ [b] ++ "'")

/-- The option of a long name, which may be cut short. -/
def named (k : Known) (whole name : Text) : Except Text Char :=
  match k.names.find? fun (n, _) => ofString n = name with
  | some (_, c) => .ok c
  | none =>
    match k.names.filter fun (n, _) => startsWith n name with
    | [] => .error ("unrecognized option '--" ++ name ++ "'")
    | (n, c) :: others =>
      if others.all fun (_, o) => o = c then .ok c
      else
        let listed : Text := ((n, c) :: others).flatMap fun (n, _) => ofString (" '--" ++ n ++ "'")
        .error ("option '" ++ whole ++ "' is ambiguous; possibilities:" ++ listed)

/-- Reads the arguments; options may stand anywhere before `--`, or only in front. -/
def arguments (k : Known) : (fuel : Nat) → List Text → Except Text Options
  | 0, _ => .ok {}
  | _ + 1, [] => .ok {}
  | n + 1, a :: as =>
    if a = "--" then .ok { operands := as }
    else if startsWith a "--" then
      let (name, value) : Text × Option Text := match cut? (byte '=') (a.drop 2) with
        | some (x, v) => (x, some v)
        | none => (a.drop 2, none)
      match named k a name with
      | .error e => .error e
      | .ok c =>
        let long := ((k.names.find? fun (n, o) => o = c && startsWith n name).map fun (n, _) =>
          ofString n).getD name
        if k.valued.contains c then
          match value, as with
          | some v, _ => (arguments k n as).map (Options.adding c v)
          | none, v :: rest => (arguments k n rest).map (Options.adding c v)
          | none, [] => .error ("option '--" ++ long ++ "' requires an argument")
        else match value with
          | some _ => .error ("option '--" ++ long ++ "' doesn't allow an argument")
          | none => (arguments k n as).map (Options.adding c [])
    else if a.length > 1 && a.head? = some (byte '-') then
      match cluster k (a.drop 1) as with
      | .error e => .error e
      | .ok (os, rest) => (arguments k n rest).map fun o => { o with given := os ++ o.given }
    else if k.leading then .ok { operands := a :: as }
    else (arguments k n as).map fun o => { o with operands := a :: o.operands }

/-- Does something with the options and operands of a call that makes sense. -/
def opting (d : Disk) (k : Known) (args : List Text) (act : Options → ToolResult) :
    ToolResult :=
  match arguments k (args.length + 1) args with
  | .error m => misused d m
  | .ok o => act o

/-! ### Operands -/

def isDirectory (d : Disk) (p : Text) : Bool :=
  match d.stat p with
  | .ok (_, n) => n.isDir
  | .error _ => false

/-- What has been done to operands so far: the disk, what was said, and whether something
    failed. -/
structure Progress where
  disk : Disk
  said : List Saying := []
  failed : Bool := false

namespace Progress

def complaining (p : Progress) (message : Text) : Progress :=
  { p with failed := true, said := p.said ++ [.complaint message] }

/-- After a line of output. -/
def saying (p : Progress) (line : Text) : Progress :=
  { p with said := p.said ++ [.output (line ++ "\n")] }

def result (p : Progress) : ToolResult :=
  { disk := p.disk, said := p.said, status := if p.failed then 1 else 0 }

end Progress

end Tools

end Gauntlet.Shell
