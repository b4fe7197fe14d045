import Gauntlet.Shell.Condition
import Gauntlet.Shell.Tool

/-! # Copying

  Files are written out, with their lines numbered or their bytes made visible if that is
  asked for, or copied to other places, whole directories too.
-/

namespace Gauntlet.Shell.Tools

open Text

/-! ### Showing -/

/-- How contents are shown. -/
structure View where
  numbered : Bool
  /-- Only lines that hold something have numbers. -/
  filledOnly : Bool
  /-- The ends of lines are marked. -/
  ends : Bool
  /-- Tabs are made visible. -/
  tabs : Bool
  /-- Other bytes that are not shown are made visible. -/
  bytes : Bool
  /-- Of several empty lines one is shown. -/
  squeezed : Bool

/-- Contents are shown as they are. -/
def View.plain (v : View) : Bool :=
  !(v.numbered || v.filledOnly || v.ends || v.tabs || v.bytes || v.squeezed)

/-- How far showing has got. -/
structure Shown where
  out : List Text := []
  /-- The number of the last line. -/
  number : Nat := 0
  /-- How many line breaks were met in a row; at the start one. -/
  breaks : Nat := 1

def visibleLow (b : UInt8) : Text :=
  if b = 127 then "^?" else if b < 32 then [byte '^', b + 64] else [b]

def visible (v : View) (b : UInt8) : Text :=
  if b = 9 then (if v.tabs then "^I" else [b])
  else if !v.bytes then [b]
  else if 128 ≤ b then "M-" ++ visibleLow (b - 128)
  else visibleLow b

def lineNumber (n : Nat) : Text :=
  let ds := Numeral.ofNat n
  spaces (6 - ds.length) ++ ds ++ "\t"

/-- Shows one more byte; `following` is the one after it. -/
def Shown.step (v : View) (s : Shown) (b : UInt8) (following : Option UInt8) : Shown :=
  if b = 10 then
    if v.squeezed && 2 ≤ s.breaks then s
    else
      let counted := v.numbered && !v.filledOnly && 1 ≤ s.breaks
      let number := if counted then s.number + 1 else s.number
      let front := if counted then lineNumber number else []
      { out := (front ++ (if v.ends then "$\n" else "\n")) :: s.out, number, breaks := s.breaks + 1 }
  else
    let counted := (v.numbered || v.filledOnly) && 1 ≤ s.breaks
    let number := if counted then s.number + 1 else s.number
    let front := if counted then lineNumber number else []
    let shown : Text := if b = 13 && following = some 10 && v.ends then "^M" else visible v b
    { out := (front ++ shown) :: s.out, number, breaks := 0 }

def Shown.all (v : View) : Text → Shown → Shown
  | [], s => s
  | b :: t, s => Shown.all v t (s.step v b t.head?)

def viewOptions : Known where
  letters := ['A', 'b', 'e', 'E', 'n', 's', 't', 'T', 'u', 'v']
  names := [("number-nonblank", 'b'), ("number", 'n'), ("squeeze-blank", 's'),
    ("show-nonprinting", 'v'), ("show-ends", 'E'), ("show-tabs", 'T'), ("show-all", 'A')]

/-- How options ask for contents to be shown. -/
def View.of (o : Options) : View where
  numbered := o.has 'n'
  filledOnly := o.has 'b'
  ends := o.has 'E' || o.has 'A' || o.has 'e'
  tabs := o.has 'T' || o.has 'A' || o.has 't'
  bytes := o.has 'v' || o.has 'A' || o.has 'e' || o.has 't'
  squeezed := o.has 's'

/-- Writes the contents of files, or of the input. A file that is written to is not read. -/
def cat (s : Condition.Scene) (args : List Text) (input : Except Errno Text) : ToolResult :=
  let d := s.disk
  opting d viewOptions args fun o =>
    let v := View.of o
    let rest := input.toOption.getD []
    let show' (r : ToolResult × Shown) (data : Text) : ToolResult × Shown :=
      if v.plain then ({ r.1 with said := r.1.said ++ [.output data] }, r.2)
      else
        let s := Shown.all v data { r.2 with out := [] }
        ({ r.1 with said := r.1.said ++ [.output s.out.reverse.flatten] }, s)
    let one (r : ToolResult × Shown) (f : Text) : ToolResult × Shown :=
      let failed (e : Errno) : ToolResult × Shown :=
        ({ r.1 with
            status := 1
            said := r.1.said ++ [.complaint (quotedIfSpecial f ++ ": " ++ reason e)] }, r.2)
      let circular : ToolResult × Shown :=
        ({ r.1 with
            status := 1
            said := r.1.said ++ [.complaint (quotedIfSpecial f ++ ": input file is output file")] }, r.2)
      let written (k : Option StreamKind) : Bool := k.any StreamKind.isFile && s.stream 1 = k
      if f = "-" || f = "/dev/stdin" then
        match input with
        | .ok _ =>
          if written (s.stream 0) && !r.1.input.isEmpty then circular
          else
            let (result, s) := show' r r.1.input
            ({ result with input := [], said := result.said ++ [.drained] }, s)
        | .error e => failed e
      else match d.contents f with
        | .ok data =>
          if !data.isEmpty && written ((d.stat f).toOption.map fun (l, _) => .file l) then circular
          else show' r data
        | .error e => failed e.errno
    let operands := if o.operands.isEmpty then [single '-'] else o.operands
    let r := (operands.foldl one ({ disk := d, input := rest }, {})).1
    if (s.stream 1).isNone then
      { disk := d, status := 1, input := rest, said :=
          [.complaint ("standard output: " ++ reason .badStream)] }
    else if operands.contains (single '-') && (s.stream 0).isNone then
      { r with said := r.said ++ [.complaint ("closing standard input: " ++ reason .badStream)] }
    else r

/-! ### Copying -/

/-- How files are copied. -/
structure Manner where
  /-- Directories are copied with what is in them. -/
  deep : Bool
  following : Bool
  /-- Links in directories are followed too. -/
  everywhere : Bool
  /-- A file that cannot be written to is replaced. -/
  forced : Bool
  /-- Files that are there stay as they are. -/
  keeping : Bool
  /-- Permissions are copied too. -/
  exact : Bool
  verbose : Bool

/-- A copy is told. -/
def Progress.telling (p : Progress) (m : Manner) (source target : Text) : Progress :=
  if m.verbose then p.saying (inQuotes source ++ " -> " ++ inQuotes target) else p

/-- What a call asks for: a source and a target, and the first directory made on the way. -/
structure Errand where
  source : Text
  target : Text
  made : Option Location := none

def copyFile (m : Manner) (source target : Text) (n : Node) (p : Progress) : Progress :=
  let mode := n.mode &&& 0o777
  let marked (d : Disk) : Disk := if m.exact then (d.chmod target mode).toOption.getD d else d
  let there := (p.disk.stat target).toOption
  let p := p.telling m source target
  let d := p.disk
  match d.contents source with
  | .error e => p.complaining ("cannot open " ++ inQuotes source ++ " for reading: " ++ reason e.errno)
  | .ok data =>
    if there.any fun (_, n) => n.isDevice then p
    else if there.isNone && (d.lstat target).toOption.isSome then
      p.complaining ("not writing through dangling symlink " ++ inQuotes target)
    else match d.writeFile target data mode with
      | .ok d => { p with disk := marked d }
      | .error e =>
        let errno := if e.errno = .isDirectory && there.isNone then .notDirectory else e.errno
        let refused (p : Progress) : Progress := p.complaining
          ("cannot create regular file " ++ inQuotes target ++ ": " ++ reason errno)
        if !m.forced || there.isNone then refused p
        else match d.remove target with
          | .error e => p.complaining ("cannot remove " ++ inQuotes target ++ ": " ++ reason e.errno)
          | .ok d =>
            let p := if m.verbose then p.saying ("removed " ++ inQuotes target) else p
            match d.writeFile target data mode with
            | .ok d => { p with disk := marked d }
            | .error _ => refused { p with disk := d }

/-- Copies a symbolic link to a path, whatever stands there. -/
def copyLink (m : Manner) (source target aim : Text) (p : Progress) : Progress :=
  let made (p : Progress) : Progress :=
    match p.disk.symlink aim target with
    | .ok disk => { p.telling m source target with disk }
    | .error e => p.complaining
        ("cannot create symbolic link " ++ inQuotes target ++ ": " ++ reason e.errno)
  if (p.disk.lstat target).toOption.isNone then made p
  else match p.disk.remove target with
    | .ok disk =>
      let p := { p with disk }
      made (if m.verbose then p.saying ("removed " ++ inQuotes target) else p)
    | .error e => p.complaining ("cannot remove " ++ inQuotes target ++ ": " ++ reason e.errno)

/-- Copies what a path names to another path, which does not stand for a directory to copy
    into. A directory that was made for the copy is not copied itself. -/
def copyTo (m : Manner) : (fuel : Nat) → Errand → (source target : Text) → Progress → Progress
  | 0, _, _, _, p => p
  | k + 1, errand, source, target, p =>
    let d := p.disk
    let unseen (f : Text) (e : Errno) : Progress :=
      p.complaining ("cannot stat " ++ inQuotes f ++ ": " ++ reason e)
    match d.find m.following source with
    | .error e => unseen source e
    | .ok (l, n) =>
      let looked := d.find n.isFile target
      let there := looked.toOption
      let intoDir := there.any fun (_, n) => n.isDir
      let hidden : Option Errno := match looked with
        | .error e => if e = .missing then none else some e
        | .ok _ => none
      if n.isDir && !m.deep then
        p.complaining ("-r not specified; omitting directory " ++ inQuotes source)
      else if hidden.isSome then unseen target (hidden.getD .missing)
      else if there.any fun (l', _) => l = l' then
        p.complaining (inQuotes source ++ " and " ++ inQuotes target ++ " are the same file")
      else if m.keeping && there.isSome && !n.isDir then p
      else if intoDir && !n.isDir then
        p.complaining ("cannot overwrite directory " ++ inQuotes target ++ " with non-directory")
      else if n.isDir && there.isSome && !intoDir then
        p.complaining ("cannot overwrite non-directory " ++ inQuotes target ++ " with directory " ++
          inQuotes source)
      else match n with
        | .file _ _ _ => copyFile m source target n p
        | .link aim => copyLink m source target aim p
        | .dir mode _ =>
          if errand.made = some l then
            p.complaining ("cannot copy a directory, " ++ inQuotes errand.source ++ ", into itself, " ++
              inQuotes errand.target)
          else match (if intoDir then .ok d else d.mkdir target (mode ||| 0o700) : Except OsError Disk) with
            | .error e =>
              p.complaining ("cannot create directory " ++ inQuotes target ++ ": " ++ reason e.errno)
            | .ok disk =>
              let place := (disk.stat target).toOption.map (·.1)
              let errand := { errand with made := errand.made.or (if intoDir then none else place) }
              let p := { p with disk }
              let p := if intoDir then p else p.telling m source target
              let p :=
                if !n.readable then
                  p.complaining ("cannot access " ++ inQuotes source ++ ": " ++ reason .denied)
                else (disk.names l).foldl (fun p name =>
                  copyTo { m with following := m.following && m.everywhere } k errand
                    (source ++ "/" ++ name) (target ++ "/" ++ name) p) p
              let kept := if m.exact then mode else disk.created mode
              if intoDir && !m.exact then p
              else { p with disk := (p.disk.chmod target kept).toOption.getD p.disk }

/-- The path in a directory that something of a name gets. -/
def into (dir name : Text) : Text :=
  let bare := Path.withoutTrailing dir
  (if bare.isEmpty then dir else bare ++ "/") ++ (if name.isEmpty then [] else Path.base name)

/-- Applies a transfer to sources and a last operand that may be a directory. -/
def transfer (d : Disk) (o : Options) (act : Text → Text → Progress → Progress) : ToolResult :=
  let each (dir : Text) (sources : List Text) : ToolResult :=
    (sources.foldl (fun p f => act f (into dir f) p) { disk := d }).result
  let noDirectory (target : Text) : ToolResult :=
    ({ disk := d : Progress }.complaining ("target " ++ inQuotes target ++ ": " ++
      (match d.stat target with
        | .ok _ => reason .notDirectory
        | .error e => reason e.errno))).result
  match o.value? 't' with
  | some dir =>
    if 1 < (o.given.filter fun (c, _) => c = 't').length then
      ({ disk := d : Progress }.complaining "multiple target directories specified").result
    else if o.operands.isEmpty then misused d "missing file operand"
    else if isDirectory d dir then each dir o.operands
    else ({ disk := d : Progress }.complaining ("target directory " ++ inQuotes dir ++ ": " ++
      (match d.stat dir with
        | .ok _ => reason .notDirectory
        | .error e => reason e.errno))).result
  | none =>
    match o.operands.reverse with
    | [] => misused d "missing file operand"
    | [f] => misused d ("missing destination file operand after " ++ inQuotes f)
    | target :: rest =>
      let sources := rest.reverse
      if o.has 'T' then
        match sources with
        | [f] => (act f target { disk := d }).result
        | _ => misused d ("extra operand " ++ inQuotes (o.operands.getD 2 []))
      else if isDirectory d target then each target sources
      else match sources with
        | [f] => (act f target { disk := d }).result
        | _ => noDirectory target

def copyOptions : Known where
  letters := ['a', 'd', 'f', 'H', 'L', 'P', 'n', 'p', 'R', 'r', 'T', 'v', 'x']
  valued := ['t']
  names := [("archive", 'a'), ("force", 'f'), ("dereference", 'L'), ("no-dereference", 'P'),
    ("no-clobber", 'n'), ("recursive", 'r'), ("no-target-directory", 'T'), ("target-directory", 't'),
    ("verbose", 'v')]

def cp (d : Disk) (args : List Text) : ToolResult :=
  opting d copyOptions args fun o =>
    let deep := o.has 'r' || o.has 'R' || o.has 'a'
    let links := (o.given.filter fun (c, _) => ['L', 'P', 'd', 'a', 'H'].contains c).getLast?.map (·.1)
    let following := match links with
      | some 'L' => true
      | some 'H' => true
      | some _ => false
      | none => !deep
    let m : Manner :=
      { deep, following, everywhere := links = some 'L', forced := o.has 'f', keeping := o.has 'n',
        exact := o.has 'p' || o.has 'a', verbose := o.has 'v' }
    transfer d o fun source target =>
      copyTo m (d.nodes.pairs.length + 1) { source, target } source target

/-! ### Moving -/

/-- Gives what a path names another path. An empty directory makes way for another one. -/
def renamed (d : Disk) (source target : Text) (n : Node) : Except Errno Disk :=
  let bare := Path.withoutTrailing target
  let there := (d.lstat target).toOption
  let target := if n.isDir && there.isNone && !bare.isEmpty then bare else target
  let dots := Path.base source
  if dots = Path.here || dots = Path.up then .error .busy
  else if !n.isDir && there.isNone && target.getLast? = some Path.slash then .error .notDirectory
  else
    let cleared : Except OsError Disk :=
      if there.any fun (_, n) => n.isDir then d.remove target else .ok d
    (cleared.bind fun d => d.rename source target).mapError OsError.errno

/-- Moves what a path names to another path, which does not stand for a directory to move
    into. -/
def moveTo (o : Options) (source target : Text) (p : Progress) : Progress :=
  let d := p.disk
  let unseen (f : Text) (e : OsError) : Progress :=
    p.complaining ("cannot stat " ++ inQuotes f ++ ": " ++ reason e.errno)
  let moving (n : Node) : Progress :=
    match renamed d source target n with
    | .ok d =>
      let p := { p with disk := d }
      if o.has 'v' then p.saying ("renamed " ++ inQuotes source ++ " -> " ++ inQuotes target) else p
    | .error .invalid =>
      p.complaining ("cannot move " ++ inQuotes source ++ " to a subdirectory of itself, " ++
        inQuotes target)
    | .error .notEmpty =>
      p.complaining ("cannot overwrite " ++ inQuotes target ++ ": " ++ reason .notEmpty)
    | .error e =>
      p.complaining ("cannot move " ++ inQuotes source ++ " to " ++ inQuotes target ++ ": " ++ reason e)
  match d.lstat source with
  | .error e => unseen source e
  | .ok (_, n) =>
    match d.lstat target with
    | .error e => if e.errno = .missing then moving n else unseen target e
    | .ok (l, old) =>
      if (d.stat source).toOption.any (fun (l', _) => l = l') ||
          (d.lstat source).toOption.any (fun (l', _) => l = l') then
        p.complaining (inQuotes source ++ " and " ++ inQuotes target ++ " are the same file")
      else if o.has 'n' then p
      else if old.isDir && !n.isDir then
        p.complaining ("cannot overwrite directory " ++ inQuotes target ++ " with non-directory")
      else if n.isDir && !old.isDir then
        p.complaining ("cannot overwrite non-directory " ++ inQuotes target ++ " with directory " ++
          inQuotes source)
      else moving n

def mv (d : Disk) (args : List Text) : ToolResult :=
  let known : Known :=
    { letters := ['f', 'n', 'T', 'v'], valued := ['t']
      names := [("force", 'f'), ("no-clobber", 'n'), ("no-target-directory", 'T'),
        ("target-directory", 't'), ("verbose", 'v')] }
  opting d known args fun o => transfer d o (moveTo o)

end Gauntlet.Shell.Tools
