import Gauntlet.Disk.Directory

/-! # Fixtures

  A fixture prepares a disk: a list of entries that are planted one after the other,
  each with the directories above it. What cannot be planted is left out. `listing`
  shows what there is below a directory.
-/

namespace Gauntlet

/-- What an entry puts at its path. -/
inductive Planting where
  | file (data : Text)
  | dir
  | link (target : Text)
  /-- Nothing: the path and all below it are removed. -/
  | nothing
  deriving DecidableEq, Repr

/-- One entry of a fixture. -/
structure Fixture where
  path : Text
  planting : Planting
  /-- The permission bits, if they are not the usual ones. -/
  mode : Option Nat := none
  /-- The time of the last change, if it is not the present. -/
  modified : Option Instant := none
  deriving DecidableEq, Repr

namespace Disk

/-- The disk after an operation, or as it was if the operation is refused. -/
def orKeep {ε : Type} (d : Disk) : Except ε Disk → Disk
  | .ok d' => d'
  | .error _ => d

/-- The disk with the mode and the time of a path set. -/
def mark (d : Disk) (f : Fixture) (mode : Nat) : Disk :=
  let d := d.orKeep (d.chmod f.path (f.mode.getD mode))
  match f.modified with
  | some t => d.orKeep (d.setModified f.path t)
  | none => d

def plant (d : Disk) (f : Fixture) : Disk :=
  let ready := (d.mkdirs (Path.parent f.path) 0o755).1
  match f.planting with
  | .nothing => d.removeAll f.path
  | .link target => ready.orKeep (ready.symlink target f.path)
  | .dir => ((d.mkdirs f.path 0o755).1).mark f 0o755
  | .file data => (ready.orKeep (ready.writeFile f.path data 0o644)).mark f 0o644

/-- Plants entries whose relative paths are below a directory. -/
def plantAll (d : Disk) (dir : Location) (fs : List Fixture) : Disk :=
  { fs.foldl plant { d with cwd := some dir } with cwd := d.cwd }

/-- A node is shown by a listing from `top`: every directory between them can be read. -/
def shownFrom (d : Disk) (top l : Location) : Bool :=
  (List.range (l.length - top.length)).all fun k =>
    ((d.node? (l.take (top.length + k))).map Node.readable).getD false

/-- Everything below a directory with relative paths, depth first, or the first file that
    cannot be read. A directory that cannot be read is shown without what is in it, and a
    path that is no directory has nothing below it. -/
def listing (d : Disk) (p : Text) : Except OsError (List (Text × Node)) :=
  match d.find false p with
  | .ok (l, .dir _ _) =>
    ((d.tree l).filter fun (q, _) => d.shownFrom l q).mapM fun (q, n) =>
      let path := Text.intercalate [Path.slash] (q.drop l.length)
      let within := p ++ [Path.slash] ++ path
      match d.find false within with
      | .error e => .error ⟨"lstat", within, e⟩
      | .ok _ =>
        if n.isFile && !n.readable then .error ⟨"open", within, .denied⟩ else .ok (path, n)
  | _ => .ok []

end Disk

end Gauntlet
