import Gauntlet.Shell.Tool.Copying

/-! # Linking

  A file gets another name: a symbolic link, or the same contents at another place.
-/

namespace Gauntlet.Shell.Tools

open Text

def linkOptions : Known where
  letters := ['s', 'f', 'n', 'T', 'v', 'L', 'P']
  valued := ['t']
  names := [("symbolic", 's'), ("force", 'f'), ("no-dereference", 'n'), ("no-target-directory", 'T'),
    ("verbose", 'v'), ("target-directory", 't'), ("logical", 'L'), ("physical", 'P')]

/-- A node is put at a path that is free. -/
def placed (d : Disk) (p : Text) (n : Node) : Except Errno Disk :=
  match d.place false p with
  | .error e => .error e
  | .ok (.found _) => .error .exists
  | .ok (.free dir name) =>
    if d.changeable dir then .ok ((d.put (dir ++ [name]) n).touchDir dir) else .error .denied

def linkTo (o : Options) (source path : Text) (p : Progress) : Progress :=
  let soft := o.has 's'
  let arrow : Text := if soft then " -> " else " => "
  let made (d : Disk) : Progress :=
    let p := { p with disk := d }
    if o.has 'v' then p.saying (inQuotes path ++ arrow ++ inQuotes source) else p
  let refused (e : Errno) : Progress :=
    let kind : Text := if soft then "symbolic link " else "hard link "
    let pair := if soft then source.isEmpty || e = .nameTooLong else e ≠ .exists
    p.complaining ("failed to create " ++ kind ++ inQuotes path ++
      (if pair then arrow ++ inQuotes source else []) ++ ": " ++ reason e)
  let link (n : Node) : Progress :=
    match if soft && source.isEmpty then .error .missing else placed p.disk path n with
    | .ok d => made d
    | .error e =>
      match if e = .exists && o.has 'f' then (p.disk.lstat path).toOption else none with
      | none => refused e
      | some (l, old) =>
        if old.isDir then p.complaining (quotedIfSpecial path ++ ": cannot overwrite directory")
        else if (p.disk.find soft source).toOption.any fun (l', _) => l = l' then
          p.complaining (inQuotes source ++ " and " ++ inQuotes path ++ " are the same file")
        else match (p.disk.remove path).mapError OsError.errno |>.bind fun d => placed d path n with
          | .ok d => made d
          | .error e => refused e
  if soft then link (.link source)
  else match p.disk.find (o.has 'L') source with
    | .error e => p.complaining ("failed to access " ++ inQuotes source ++ ": " ++ reason e)
    | .ok (_, n) =>
      if n.isDir then
        p.complaining (quotedIfSpecial source ++ ": hard link not allowed for directory")
      else link n

def ln (d : Disk) (args : List Text) : ToolResult :=
  opting d linkOptions args fun o =>
    let each (dir : Text) (sources : List Text) : ToolResult :=
      (sources.foldl (fun p f => linkTo o f (into dir f) p) { disk := d }).result
    let one (source path : Text) : ToolResult := (linkTo o source path { disk := d }).result
    let problem (what path : Text) : ToolResult :=
      let e := match d.stat path with
        | .ok _ => .notDirectory
        | .error e => e.errno
      ({ disk := d : Progress }.complaining (what ++ inQuotes path ++ ": " ++ reason e)).result
    let isPlace (path : Text) : Bool :=
      isDirectory d path &&
        !(o.has 'n' && (d.lstat path).toOption.any fun (_, n) => !n.isDir)
    match o.value? 't', o.operands with
    | _, [] => misused d "missing file operand"
    | some dir, sources => if isDirectory d dir then each dir sources else problem "target directory " dir
    | none, [source] =>
      if o.has 'T' then misused d ("missing destination file operand after " ++ inQuotes source)
      else each Path.here [source]
    | none, source :: second :: more =>
      let operands := source :: second :: more
      let last := operands.getLastD source
      if o.has 'T' then
        match more with
        | [] => one source second
        | extra :: _ => misused d ("extra operand " ++ inQuotes extra)
      else if isPlace last then each last operands.dropLast
      else if more.isEmpty then one source second
      else problem "target " last

end Gauntlet.Shell.Tools
