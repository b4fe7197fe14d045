import Gauntlet.SortedMap
import Gauntlet.Path
import Gauntlet.Instant
import Gauntlet.Failure

/-! # The disk

  The files that a run works on, as a value: a map from locations to nodes, the
  working directory, and the time of the clock. A location is the list of
  components from the root directory down, so the order of locations lists a
  tree depth first with names in byte order.

  - `walk` follows a path name to its location, through symbolic links.
  - Owner permissions are enforced: searching, listing and changing a directory,
    reading and writing a file.
  - An operation either changes the disk as a whole or fails and leaves it as it
    was.
-/

namespace Gauntlet

/-- The components from the root directory to a node. -/
abbrev Location := List Text

/-- What stands at a location. -/
inductive Node where
  | file (data : Text) (mode : Nat) (modified : Instant)
  | dir (mode : Nat) (modified : Instant)
  | link (target : Text)
  deriving DecidableEq, Repr, Inhabited

namespace Node

/-- A directory. -/
def isDir : Node → Bool
  | dir _ _ => true
  | _ => false

def isFile : Node → Bool
  | file _ _ _ => true
  | _ => false

/-- The bits that mark a device among files, in front of its permission bits. -/
def deviceBits : Nat := 0o20000

/-- The permission bits of a file or directory. -/
def mode : Node → Nat
  | file _ m _ => m
  | dir m _ => m
  | link _ => 0o777

def isDevice (n : Node) : Bool := n.isFile && n.mode / deviceBits % 2 = 1

/-- The time of the last change. -/
def modified : Node → Instant
  | file _ _ t => t
  | dir _ t => t
  | link _ => ⟨0, 0⟩

/-- The node with other permission bits. -/
def withMode (m : Nat) : Node → Node
  | file data _ t => file data m t
  | dir _ t => dir m t
  | link target => link target

/-- The node with another change time. -/
def withModified (t : Instant) : Node → Node
  | file data m _ => file data m t
  | dir m _ => dir m t
  | link target => link target

/-- The owner may read. -/
def readable (n : Node) : Bool := n.mode / 64 % 8 / 4 = 1

/-- The owner may write. -/
def writable (n : Node) : Bool := n.mode / 64 % 4 / 2 = 1

/-- The owner may execute a file or search a directory. -/
def executable (n : Node) : Bool := n.mode / 64 % 2 = 1

/-- Someone may execute a file. -/
def hasExecuteBit (n : Node) : Bool :=
  n.mode / 64 % 2 = 1 || n.mode / 8 % 2 = 1 || n.mode % 2 = 1

end Node

/-! ### Errors -/

/-- Why the operating system refuses a request. -/
inductive Errno where
  | missing
  | notDirectory
  | isDirectory
  | exists
  | denied
  | nameTooLong
  | tooManyLinks
  | invalid
  | notEmpty
  | busy
  | execFormat
  | badStream
  | noSpace
  deriving DecidableEq, Repr, Inhabited

/-- The wording of a refusal. -/
def Errno.text : Errno → Text
  | missing => "no such file or directory"
  | notDirectory => "not a directory"
  | isDirectory => "is a directory"
  | .exists => "file exists"
  | denied => "permission denied"
  | nameTooLong => "file name too long"
  | tooManyLinks => "too many levels of symbolic links"
  | invalid => "invalid argument"
  | notEmpty => "directory not empty"
  | busy => "device or resource busy"
  | execFormat => "exec format error"
  | badStream => "bad file descriptor"
  | noSpace => "no space left on device"

/-- A refused request: what was asked, of which path, and why it failed. -/
structure OsError where
  request : Text
  path : Text
  errno : Errno
  deriving DecidableEq, Repr, Inhabited

namespace OsError

/-- The wording of a refused request. -/
def message (e : OsError) : Text := e.request ++ " " ++ e.path ++ ": " ++ e.errno.text

/-- A refused request as a failure. -/
def failure (e : OsError) : Failure := .plain e.message

end OsError

/-! ### The disk -/

/-- The files, the working directory and the clock. -/
structure Disk where
  /-- The node at each location; the root directory has no components. -/
  nodes : SortedMap Location Node
  /-- The working directory; `none` once it has been deleted. -/
  cwd : Option Location
  /-- The time given to nodes that change. -/
  now : Instant
  /-- The permission bits that new files and directories do not get. -/
  mask : Nat := 0o022
  /-- The number that is drawn at each attempt to name a temporary file beside a path. -/
  draws : Text → Nat → Nat := fun _ attempt => 1000000000 + attempt
  deriving Inhabited

namespace Disk

def node? (d : Disk) (l : Location) : Option Node := d.nodes.get? l

def put (d : Disk) (l : Location) (n : Node) : Disk := { d with nodes := d.nodes.insert l n }

def drop (d : Disk) (l : Location) : Disk := { d with nodes := d.nodes.erase l }

/-- The disk with the change time of a directory set to the present. -/
def touchDir (d : Disk) (l : Location) : Disk :=
  { d with nodes := d.nodes.modify l fun
      | .dir m _ => .dir m d.now
      | n => n }

def below (top l : Location) : Bool := top.isPrefixOf l && top.length < l.length

/-- The locations strictly below one, with their nodes, depth first. -/
def tree (d : Disk) (top : Location) : List (Location × Node) :=
  d.nodes.pairs.filter fun p => below top p.1

/-- The names in a directory, in byte order. -/
def names (d : Disk) (l : Location) : List Text :=
  (d.tree l).filterMap fun p => if p.1.length = l.length + 1 then p.1.getLast? else none

/-! ### Following paths -/

/-- Where a path leads. -/
inductive Place where
  /-- To a node. -/
  | found (l : Location)
  /-- To a name that is free in an existing directory. -/
  | free (dir : Location) (name : Text)
  deriving DecidableEq, Repr, Inhabited

/-- The components to walk over; a trailing slash asks for a directory. -/
def steps (p : Text) : List Text :=
  let cs := (Path.pieces p).filter (· ≠ [])
  if cs ≠ [] ∧ p.getLast? = some Path.slash then cs ++ [Path.here] else cs

/-- The longest component of a path. -/
def nameLimit : Nat := 255

/-- One more than the longest path. -/
def pathLimit : Nat := 4096

/-- The number of symbolic links that one path may lead through. -/
def linkLimit : Nat := 40

/-- Walks over components from a location; `onLink` takes over when a symbolic
    link has to be followed. A directory that is gone holds nothing, but still leads up. -/
def walkWith (d : Disk) (follow : Bool) (onLink : Location → List Text → Except Errno Place) :
    Location → List Text → Except Errno Place
  | l, [] => .ok (.found l)
  | l, c :: rest =>
    match d.node? l with
    | some (.dir m t) =>
      if !(Node.dir m t).executable then .error .denied
      else if c = Path.here then walkWith d follow onLink l rest
      else if c = Path.up then walkWith d follow onLink l.dropLast rest
      else if nameLimit < c.length then .error .nameTooLong
      else match d.node? (l ++ [c]) with
        | none => if rest = [] then .ok (.free l c) else .error .missing
        | some (.link target) =>
          if rest = [] ∧ !follow then .ok (.found (l ++ [c]))
          else onLink (if Path.isAbsolute target then [] else l) (steps target ++ rest)
        | some _ => walkWith d follow onLink (l ++ [c]) rest
    | some _ => .error .notDirectory
    | none =>
      if c = Path.here then walkWith d follow onLink l rest
      else if c = Path.up then walkWith d follow onLink l.dropLast rest
      else .error .missing

/-- Walks over components, through at most a number of symbolic links. -/
def walk (d : Disk) (follow : Bool) : (links : Nat) → Location → List Text → Except Errno Place
  | 0 => walkWith d follow fun _ _ => .error .tooManyLinks
  | n + 1 => walkWith d follow (walk d follow n)

/-- The location that a path starts from; some paths are refused by their form. -/
def start (d : Disk) (p : Text) : Except Errno Location :=
  if p.contains 0 then .error .invalid
  else if p = [] then .error .missing
  else if pathLimit ≤ p.length then .error .nameTooLong
  else if Path.isAbsolute p then .ok []
  else match d.cwd with
    | some l => .ok l
    | none => .error .missing

/-- The place that a path names; `follow` tells whether a symbolic link at its
    end is followed. -/
def place (d : Disk) (follow : Bool) (p : Text) : Except Errno Place :=
  match d.start p with
  | .error e => .error e
  | .ok l => d.walk follow linkLimit l (steps p)

/-- The directory that holds the last component of a path, and that component, which is
    not looked up; a path of slashes alone has none. -/
def holder (d : Disk) (p : Text) : Except Errno (Location × Option Text) :=
  let cs := (Path.pieces p).filter (· ≠ [])
  match d.start p with
  | .error e => .error e
  | .ok l =>
    match cs.getLast? with
    | none => .ok ([], none)
    | some c =>
      match d.walk true linkLimit l (cs.dropLast ++ [Path.here]) with
      | .error e => .error e
      | .ok (.free _ _) => .error .missing
      | .ok (.found dir) => .ok (dir, some c)

def find (d : Disk) (follow : Bool) (p : Text) : Except Errno (Location × Node) :=
  match d.place follow p with
  | .error e => .error e
  | .ok (.free _ _) => .error .missing
  | .ok (.found l) =>
    match d.node? l with
    | some n => .ok (l, n)
    | none => .error .missing

/-- The location and node of a path, after symbolic links. -/
def stat (d : Disk) (p : Text) : Except OsError (Location × Node) :=
  (d.find true p).mapError fun e => ⟨"stat", p, e⟩

/-- The location and node of a path; a symbolic link at its end is not followed. -/
def lstat (d : Disk) (p : Text) : Except OsError (Location × Node) :=
  (d.find false p).mapError fun e => ⟨"lstat", p, e⟩

/-! ### The working directory -/

/-- The path of the working directory. -/
def workingDir (d : Disk) : Except Failure Text :=
  match d.cwd.filter fun l => (d.node? l).isSome with
  | some l => .ok (Path.absolute l)
  | none => .error (.plain ("getwd: " ++ Errno.missing.text))

/-- The cleaned absolute form of a path. -/
def absolute (d : Disk) (p : Text) : Except Failure Text :=
  if Path.isAbsolute p then .ok (Path.clean p)
  else match d.workingDir with
    | .ok wd => .ok (Path.join [wd, p])
    | .error f => .error f

end Disk

end Gauntlet
