import Gauntlet.Disk

/-! # Files

  Reading, writing, replacing and marking files. Every operation names the path
  it was given in its error.
-/

namespace Gauntlet.Disk

/-- The mode of a new node when `m` is asked for. -/
def created (d : Disk) (m : Nat) : Nat := m &&& (0o777 - (d.mask &&& 0o777))

/-- A free place can take a new node: its directory may be searched and changed. -/
def changeable (d : Disk) (dir : Location) : Bool :=
  match d.node? dir with
  | some n => n.isDir && n.writable && n.executable
  | none => false

/-! ### Reading -/

def contents (d : Disk) (p : Text) : Except OsError Text :=
  match d.find true p with
  | .error e => .error ⟨"open", p, e⟩
  | .ok (_, n) =>
    if !n.readable then .error ⟨"open", p, .denied⟩
    else match n with
      | .file data _ _ => .ok data
      | _ => .error ⟨"read", p, .isDirectory⟩

/-! ### Writing -/

/-- The location that a file opened for writing has, and the disk on which it is
    there, new or cut to nothing. -/
def openForWriting (d : Disk) (p : Text) (mode : Nat) : Except OsError (Location × Disk) :=
  if p.getLast? = some Path.slash then
    match d.holder p with
    | .error e => .error ⟨"open", p, e⟩
    | .ok _ => .error ⟨"open", p, .isDirectory⟩
  else match d.place true p with
    | .error e => .error ⟨"open", p, e⟩
    | .ok (.free dir name) =>
      if d.changeable dir then
        .ok (dir ++ [name], (d.put (dir ++ [name]) (.file [] (d.created mode) d.now)).touchDir dir)
      else .error ⟨"open", p, .denied⟩
    | .ok (.found l) =>
      match d.node? l with
      | some (.file data m t) =>
        if (Node.file data m t).writable then .ok (l, d.put l (.file [] m d.now))
        else .error ⟨"open", p, .denied⟩
      | _ => .error ⟨"open", p, .isDirectory⟩

/-- As `openForWriting`, for a file that will be read as well. -/
def create (d : Disk) (p : Text) : Except OsError (Location × Disk) :=
  match d.find true p with
  | .ok (_, n) =>
    if n.isFile && !n.readable then .error ⟨"open", p, .denied⟩ else d.openForWriting p 0o666
  | .error _ => d.openForWriting p 0o666

/-- As `openForWriting`, but the contents of a file that is there are kept. -/
def openForAdding (d : Disk) (p : Text) (mode : Nat) : Except OsError (Location × Disk) :=
  match d.openForWriting p mode with
  | .error e => .error e
  | .ok (l, d') =>
    match d.node? l with
    | some n => .ok (l, d'.put l n)
    | none => .ok (l, d')

/-- The disk with bytes added to the file at a location, if there is one. -/
def append (d : Disk) (l : Location) (bytes : Text) : Disk :=
  match d.node? l with
  | some (.file data m _) => d.put l (.file (data ++ bytes) m d.now)
  | _ => d

/-- The disk with bytes written over those of the file at a location, from an offset on; a
    gap before it is filled with zeros. -/
def writeAt (d : Disk) (l : Location) (offset : Nat) (bytes : Text) : Disk :=
  match d.node? l with
  | some (.file data m _) =>
    let front := data.take offset
    let gap := Text.repeated 0 (offset - front.length)
    d.put l (.file (front ++ gap ++ bytes ++ data.drop (offset + bytes.length)) m d.now)
  | _ => d

def writeFile (d : Disk) (p data : Text) (mode : Nat) : Except OsError Disk :=
  match d.openForWriting p mode with
  | .error e => .error e
  | .ok (l, d') => .ok (d'.append l data)

/-- Makes a new file that did not exist and that only the owner may use. -/
def createNew (d : Disk) (p : Text) : Except OsError (Location × Disk) :=
  match d.place false p with
  | .error e => .error ⟨"open", p, e⟩
  | .ok (.found _) => .error ⟨"open", p, .exists⟩
  | .ok (.free dir name) =>
    if d.changeable dir then
      .ok (dir ++ [name], (d.put (dir ++ [name]) (.file [] 0o600 d.now)).touchDir dir)
    else .error ⟨"open", p, .denied⟩

/-! ### Marking -/

/-- Sets the permission bits of a file or directory. -/
def chmod (d : Disk) (p : Text) (mode : Nat) : Except OsError Disk :=
  match d.find true p with
  | .error e => .error ⟨"chmod", p, e⟩
  | .ok (l, n) => .ok (d.put l (n.withMode (mode &&& 0o777)))

/-- Sets the change time of a file or directory, as far as a 64-bit count of
    nanoseconds can hold it. -/
def setModified (d : Disk) (p : Text) (t : Instant) : Except OsError Disk :=
  match d.find true p with
  | .error e => .error ⟨"chtimes", p, e⟩
  | .ok (l, n) => .ok (d.put l (n.withModified t.wrapped))

/-- Makes a symbolic link. -/
def symlink (d : Disk) (target p : Text) : Except OsError Disk :=
  match d.place false p with
  | .error e => .error ⟨"symlink", target ++ " " ++ p, e⟩
  | .ok (.found _) => .error ⟨"symlink", target ++ " " ++ p, .exists⟩
  | .ok (.free dir name) =>
    if d.changeable dir then .ok ((d.put (dir ++ [name]) (.link target)).touchDir dir)
    else .error ⟨"symlink", target ++ " " ++ p, .denied⟩

/-! ### Replacing -/

/-- The disk with a node and everything below it at another location. -/
def moved (d : Disk) (l target : Location) (n : Node) : Disk :=
  let nodes := (l, n) :: d.tree l
  let d := nodes.foldl (fun d p => d.drop p.1) d
  nodes.foldl (fun d p => d.put (target ++ p.1.drop l.length) p.2) d

/-- Moves a file or directory to a path, replacing a file there; a directory is not
    replaced. -/
def rename (d : Disk) (old new : Text) : Except OsError Disk :=
  let fail (e : Errno) : Except OsError Disk := .error ⟨"rename", old ++ " " ++ new, e⟩
  let move (l : Location) (n : Node) (target : Location) : Except OsError Disk :=
    if below l target then fail .invalid
    else if n.isDir && !n.writable && l.dropLast ≠ target.dropLast then fail .denied
    else if d.changeable l.dropLast && d.changeable target.dropLast then
      .ok (((d.moved l target n).touchDir l.dropLast).touchDir target.dropLast)
    else fail .denied
  match d.find false old, d.place false new with
  | .error e, _ => fail e
  | .ok _, .error e => fail e
  | .ok (l, n), .ok (.free dir name) => move l n (dir ++ [name])
  | .ok (l, n), .ok (.found target) =>
    match d.node? target with
    | some (.dir _ _) => fail .exists
    | _ => if n.isDir then fail .notDirectory else move l n target

end Gauntlet.Disk
