import Gauntlet.Shell.Tool.Counting
import Gauntlet.Shell.Tool.Linking
import Gauntlet.Shell.Tool.Listing
import Gauntlet.Shell.Tool.Naming
import Gauntlet.Shell.Tool.Permission
import Gauntlet.Shell.Tool.Stamping
import Gauntlet.Shell.Tool.Testing

/-! # The standard tools

  The small programs that toolchain scripts are made of: copying, marking and
  removing files, writing text, testing, and waiting.
-/

namespace Gauntlet.Shell.Tools

open Text

/-! ### Files -/

/-- Does something to each operand, collecting complaints. -/
def forEach (d : Disk) (act : Disk → Text → Disk × Option Text) (operands : List Text) :
    ToolResult :=
  operands.foldl (fun r f =>
    match act r.disk f with
    | (d, none) => { r with disk := d }
    | (d, some m) => { r with disk := d, status := 1, said := r.said ++ [.complaint m] })
    { disk := d }

def mkdir (d : Disk) (args : List Text) : ToolResult :=
  let known : Known :=
    { letters := ['p', 'v'], valued := ['m']
      names := [("parents", 'p'), ("verbose", 'v'), ("mode", 'm')] }
  opting d known args fun o =>
    let wanted := (o.value? 'm').map fun m => (m, changedMode? d.mask m 0o777)
    match if o.operands.isEmpty then none else wanted with
    | some (m, none) => { disk := d, status := 1, said := [.complaint ("invalid mode " ++ quoted m)] }
    | _ =>
      let marked (d : Disk) (p : Text) : Disk := match wanted with
        | some (_, some mode) => (d.chmod p mode).toOption.getD d
        | _ => d
      if o.operands.isEmpty then misused d "missing operand"
      else
        let r := forEach d (fun d p =>
          let failedAt (p : Text) (e : Errno) : Text :=
            "cannot create directory " ++ inQuotes p ++ ": " ++ reason e
          let failed := failedAt p
          if o.has 'p' then
            let isNew := (d.stat p).toOption.isNone
            let (d', e) := d.mkdirs p 0o777
            match e with
            | none => (if isNew then marked d' p else d', none)
            | some e =>
              let there := (d'.stat p).toOption.isSome
              (d', some (if there then failed .exists else failedAt e.path e.errno))
          else match d.mkdir p 0o777 with
            | .ok d => (marked d p, none)
            | .error e => (d, some (failed e.errno))) o.operands
        if o.has 'v' && !o.has 'p' then
          { r with said := r.said ++ (o.operands.filter fun p =>
              (d.stat p).toOption.isNone && (r.disk.stat p).toOption.isSome).map fun p =>
              .output ("mkdir: created directory " ++ inQuotes p ++ "\n") }
        else r

/-! ### Text -/

def printf (d : Disk) (args : List Text) : ToolResult :=
  match if args.head? = some "--" then args.tail else args with
  | [] => misused d "missing operand"
  | format :: rest =>
    let p := Printing.through .tool format rest
    { disk := d
      status := if p.senseless || p.failed then 1 else 0
      said := .output p.out :: p.problems.map .complaint }

/-- The lines of a text, each with its line break. -/
def brokenLines (t : Text) : List Text :=
  let ls := splitOn (byte '\n') t
  (ls.dropLast.map fun l => l ++ [byte '\n']) ++ ls.getLast?.toList.filter (!·.isEmpty)

def blockSize : Nat := 8192

/-- How much of a text the beginning is. -/
structure Extent where
  bytes : Bool := false
  count : Nat := 10
  /-- All but so much. -/
  without : Bool := false

/-- The extent that the value of an option asks for. -/
def Extent.ofText? (bytes : Bool) (t : Text) : Option Extent :=
  let (without, body) : Bool × Text := match t with
    | b :: rest => if b = byte '-' then (true, rest) else (false, t)
    | [] => (false, [])
  let ds := body.takeWhile isDigit
  let n := Numeral.value ds
  let unit? (t : Text) : Option Nat :=
    if t.isEmpty then some 1
    else if t = "b" then some 512
    else if t = "K" || t = "k" || t = "KiB" then some 1024
    else if t = "kB" || t = "KB" then some 1000
    else if t = "M" || t = "MiB" then some (1024 * 1024)
    else if t = "MB" then some 1000000
    else none
  if ds.isEmpty then none
  else (unit? (body.drop ds.length)).map fun u => { bytes, count := n * u, without }

def Extent.of (e : Extent) (t : Text) : Text :=
  if e.bytes then t.take (if e.without then t.length - e.count else e.count)
  else
    let ls := brokenLines t
    (ls.take (if e.without then ls.length - e.count else e.count)).flatten

/-- More text may belong to the beginning. -/
def Extent.isOpen (e : Extent) (found : Text) : Bool :=
  e.without || (if e.bytes then found.length else found.count 10) < e.count

/-- Writes the first lines or bytes of files, or of the input. -/
def head (s : Condition.Scene) (args : List Text) (given : Except Errno Text) : ToolResult :=
  let d := s.disk
  let input := given.toOption.getD []
  let args := match args with
    | a :: rest =>
      if a.head? = some (byte '-') && a.length > 1 && (a.drop 1).all isDigit then
        ofString "-n" :: a.drop 1 :: rest
      else args
    | [] => []
  let known : Known :=
    { letters := ['q', 'v'], valued := ['n', 'c']
      names := [("lines", 'n'), ("bytes", 'c'), ("quiet", 'q'), ("silent", 'q'), ("verbose", 'v')] }
  opting d known args fun o =>
    let asked := o.given.filter fun (c, _) => c = 'n' || c = 'c'
    match asked.find? fun (c, t) => (Extent.ofText? (c = 'c') t).isNone with
    | some (c, t) => { disk := d, status := 1, input, said :=
        [.complaint ("invalid number of " ++ (if c = 'c' then "bytes" else "lines") ++ ": " ++ quoted t)] }
    | none =>
      let extent := (asked.getLast?.bind fun (c, t) => Extent.ofText? (c = 'c') t).getD {}
      let modes := (o.given.filter fun (c, _) => c = 'q' || c = 'v').getLast?.map (·.1)
      let headed : Bool := modes.elim (decide (1 < o.operands.length)) fun c => decide (c = 'v')
      let one (r : ToolResult × Bool) (f : Text) : ToolResult × Bool :=
        let name : Text := if f = "-" then "standard input" else f
        let heading : Text := if headed then "==> " ++ name ++ " <==\n" else []
        let heading : Text := if headed && r.2 then "\n" ++ heading else heading
        let found : Except Errno Text :=
          if f = "-" then given.map fun _ => r.1.input else (d.contents f).mapError OsError.errno
        let untouched := !extent.without && extent.count = 0 && found.toOption.isNone &&
          (d.stat f).toOption.any fun (_, n) => n.isDir && n.readable
        match if untouched then .ok [] else found with
        | .ok data =>
          let shown := extent.of data
          let left := if f = "-" then data.drop shown.length else r.1.input
          let wanting : List Saying := if f = "-" && extent.isOpen shown then [.drained] else []
          ({ r.1 with said := r.1.said ++ .output (heading ++ shown) :: wanting, input := left }, true)
        | .error e =>
          let isOpen := f = "-" || e = .isDirectory
          let why : Text := if isOpen then "error reading " ++ inQuotes name
            else "cannot open " ++ inQuotes f ++ " for reading"
          let shown : List Saying := if isOpen then [.output heading] else []
          ({ r.1 with
              status := 1
              said := r.1.said ++ shown ++ [.complaint (why ++ ": " ++ reason e)] }, r.2 || isOpen)
      let operands := if o.operands.isEmpty then [single '-'] else o.operands
      let r := (operands.foldl one ({ disk := d, input }, false)).1
      if operands.contains (single '-') && (s.stream 0).isNone then
        { r with said := r.said ++ [.complaint ("-: " ++ reason .badStream)] }
      else r

/-! ### Time -/

/-- A time of the form `2`, `0.5`, `1e-1` or `3m`, in nanoseconds; one that never ends is
    longer than any limit. -/
def interval? (t : Text) : Option Nat :=
  let n := Printing.real .double t
  let unit : Option Nat :=
    if n.rest.isEmpty || n.rest = "s" then some 1
    else if n.rest = "m" then some 60
    else if n.rest = "h" then some 3600
    else if n.rest = "d" then some 86400
    else none
  match n.value.2, unit with
  | .finite negative m q _, some u =>
    let a := Decimal.Ratio.binary (m * u * 1000000000) q
    if (negative && m ≠ 0) || n.rest.length = t.length then none
    else some (min endless ((a.num + a.den - 1) / a.den))
  | .infinite false, some _ => some endless
  | _, _ => none
where
  /-- A time that never ends. -/
  endless : Nat := 0x4000000000000000

def sleep (d : Disk) (args : List Text) : ToolResult :=
  opting d {} args fun o =>
    if o.operands.isEmpty then misused d "missing operand"
    else match o.operands.filter fun t => (interval? t).isNone with
      | [] => { disk := d, pause := (o.operands.filterMap interval?).foldl (· + ·) 0 }
      | bad =>
        { disk := d, status := 1, said :=
            (bad.map fun t => .complaint ("invalid time interval " ++ quoted t)) ++ [.hint] }

/-! ### Compiling -/

/-- The complaints of an assembler about the lines of a file that holds no
    instructions. -/
def assemblerComplaints (file data : Text) : Text :=
  let lines : List Text := (splitOn (byte '\n') data).zipIdx.filterMap fun (l, k) =>
    let statement := ((l.dropWhile (· = 32)).reverse.dropWhile (· = 32)).reverse
    if statement.isEmpty then none
    else
      let complaint : Text := file ++ ":" ++ Numeral.ofNat (k + 1) ++
        ": Error: no such instruction: \x60" ++ statement ++ "'\n"
      some complaint
  let heading : Text := file ++ ": Assembler messages:\n"
  if lines.isEmpty then [] else heading ++ lines.flatten

/-- Assembles and links; the sources of a toolchain under test hold no machine code. -/
def gcc (d : Disk) (args : List Text) : ToolResult :=
  match args with
  | [] =>
    { disk := d, status := 1,
      said := [.remark ("gcc: fatal error: no input files\ncompilation terminated.\n")] }
  | file :: _ =>
    match d.contents file with
    | .ok data => { disk := d, status := 1, said := [.remark (assemblerComplaints file data)] }
    | .error e =>
      { disk := d, status := 1, said := [.remark ("gcc: error: " ++ file ++ ": " ++ reason e.errno ++
          "\ngcc: fatal error: no input files\ncompilation terminated.\n")] }

/-! ### Without an output -/

/-- What a tool does whose output is not taken. Most only find out at the end; the one that
    shows files does so at once. -/
def stifled (tool : Text) (why : Errno) (r : ToolResult) : ToolResult :=
  let complaint : Saying := .complaint ("write error: " ++ reason why)
  if !r.said.any Saying.isOutput then r
  else if tool = "cat" then
    { r with status := 1, said := (r.said.takeWhile fun s => !s.isOutput) ++ [complaint] }
  else
    { r with
      status := max r.status (if tool = "ls" then 2 else 1)
      said := (r.said.filter fun s => !s.isOutput) ++ [complaint] }

/-! ### By name -/

def names : List Text :=
  ["cat", "cp", "mv", "rm", "mkdir", "rmdir", "touch", "chmod", "ln", "ls", "echo", "printf",
   "head", "seq", "basename", "dirname", "test", "[", "sleep", "true", "false", "pwd", "gcc"]

/-- Runs a tool by its name; the input may be of a kind that cannot be read. -/
def run? (name : Text) (s : Condition.Scene) (args : List Text) (given : Except Errno Text) :
    Option ToolResult :=
  let d := s.disk
  let input := given.toOption.getD []
  let keeping (r : ToolResult) : Option ToolResult := some { r with input }
  if name = "cat" then some (cat s args given)
  else if name = "cp" then keeping (cp d args)
  else if name = "mv" then keeping (mv d args)
  else if name = "rm" then keeping (rm d args)
  else if name = "mkdir" then keeping (mkdir d args)
  else if name = "rmdir" then keeping (rmdir d args)
  else if name = "touch" then keeping (touch d args)
  else if name = "ln" then keeping (ln d args)
  else if name = "ls" then keeping (ls d args)
  else if name = "head" then some (head s args given)
  else if name = "seq" then keeping (seq d args)
  else if name = "basename" then keeping (basename d args)
  else if name = "dirname" then keeping (dirname d args)
  else if name = "chmod" then keeping (chmod d args)
  else if name = "echo" then keeping { disk := d, said := [.output (Printing.toolLine args)] }
  else if name = "printf" then keeping (printf d args)
  else if name = "test" then keeping (Testing.run s args)
  else if name = "[" then keeping (Testing.runBracketed s args)
  else if name = "sleep" then keeping (sleep d args)
  else if name = "true" then keeping { disk := d }
  else if name = "false" then keeping { disk := d, status := 1 }
  else if name = "pwd" then
    match d.workingDir with
    | .ok p => keeping { disk := d, said := [.output (p ++ "\n")] }
    | .error f => keeping { disk := d, status := 1, said := [.complaint f.message] }
  else if name = "gcc" then keeping (gcc d args)
  else none

end Gauntlet.Shell.Tools
