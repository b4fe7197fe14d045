import Gauntlet.Disk.File

/-! # Directories

  Making, listing and removing directories, and removing any node by its path.
-/

namespace Gauntlet.Disk

/-- The names in a directory, in byte order. -/
def readDir (d : Disk) (p : Text) : Except OsError (List Text) :=
  match d.find true p with
  | .error e => .error ⟨"open", p, e⟩
  | .ok (l, n) =>
    if !n.isDir then .error ⟨"open", p, .notDirectory⟩
    else if !n.readable then .error ⟨"open", p, .denied⟩
    else .ok (d.names l)

/-- Makes a directory in an existing one. -/
def mkdir (d : Disk) (p : Text) (mode : Nat) : Except OsError Disk :=
  let bare := Path.withoutTrailing p
  match d.place false (if bare = [] then p else bare) with
  | .error e => .error ⟨"mkdir", p, e⟩
  | .ok (.found _) => .error ⟨"mkdir", p, .exists⟩
  | .ok (.free dir name) =>
    if d.changeable dir then
      .ok ((d.put (dir ++ [name]) (.dir (d.created mode) d.now)).touchDir dir)
    else .error ⟨"mkdir", p, .denied⟩

/-- The path without its last component and the slash before it, if anything of
    it is left. -/
def container? (p : Text) : Option Text :=
  let lead := ((Path.withoutTrailing p).reverse.dropWhile (· ≠ Path.slash)).reverse.dropLast
  if lead = [] then none else some lead

/-- Makes a directory, unless it is there already. -/
def mkdirUnlessThere (d : Disk) (p : Text) (mode : Nat) : Disk × Option OsError :=
  match d.mkdir p mode with
  | .ok d' => (d', none)
  | .error e =>
    match d.lstat p with
    | .ok (_, n) => (d, if n.isDir then none else some e)
    | .error _ => (d, some e)

/-- Makes a directory and the missing ones above it; what was made stays when a
    later one cannot be made. -/
def mkdirsWithin : (fuel : Nat) → Disk → Text → (mode : Nat) → Disk × Option OsError
  | 0, d, p, _ => (d, some ⟨"mkdir", p, .nameTooLong⟩)
  | k + 1, d, p, mode =>
    match d.stat p with
    | .ok (_, n) => (d, if n.isDir then none else some ⟨"mkdir", p, .notDirectory⟩)
    | .error _ =>
      match container? p with
      | none => d.mkdirUnlessThere p mode
      | some c =>
        match mkdirsWithin k d c mode with
        | (d', some e) => (d', some e)
        | (d', none) => d'.mkdirUnlessThere p mode

/-- Makes a directory and the missing ones above it. -/
def mkdirs (d : Disk) (p : Text) (mode : Nat) : Disk × Option OsError :=
  mkdirsWithin (p.length + 1) d p mode

/-- Why a path cannot be removed by the form of its last component. -/
def irremovable? : Option Text → Option Errno
  | none => some .busy
  | some c =>
    if c = Path.here then some .invalid
    else if c = Path.up then some .notEmpty
    else if nameLimit < c.length then some .nameTooLong
    else none

/-- Removes a file, a link or an empty directory. A link is removed itself, and only a
    directory may be named with a slash at the end. -/
def remove (d : Disk) (p : Text) : Except OsError Disk :=
  let fail (e : Errno) : Except OsError Disk := .error ⟨"remove", p, e⟩
  match d.holder p with
  | .error e => fail e
  | .ok (dir, last) =>
    match irremovable? last with
    | some e => fail e
    | none =>
      let l := dir ++ last.toList
      match d.node? l with
      | none => fail .missing
      | some n =>
        if !n.isDir && p.getLast? = some Path.slash then fail .notDirectory
        else if !d.changeable dir then fail .denied
        else if n.isDir && !(d.names l).isEmpty then fail .notEmpty
        else .ok ((d.drop l).touchDir dir)

/-- The disk without a location and everything below it. -/
def prune (d : Disk) (top : Location) : Disk :=
  { d with nodes := d.nodes.filterKeys fun l => !(top.isPrefixOf l) }

/-- Removes a path and everything below it; a missing path is left alone. -/
def removeAll (d : Disk) (p : Text) : Disk :=
  match d.find false p with
  | .ok (l, _) => (d.prune l).touchDir l.dropLast
  | .error _ => d

end Gauntlet.Disk
