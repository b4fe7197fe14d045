import Gauntlet.Disk.Directory
import Gauntlet.Disk.Resolve

/-! # Selecting cases

  The cases of a run are the regular files of one directory whose name has a
  given ending and whose path contains a given pattern, in byte order. Symbolic
  links to files count. Artifacts are named after the resolved file, so two
  sources that resolve to the same name are refused.
-/

namespace Gauntlet.Selection

/-- The ending of sources when none is given. -/
def defaultSuffix : Text := ".prog"

/-- The case of a source; an unresolvable path keeps its own last component. -/
def caseOf (d : Disk) (source : Text) : Case where
  source := source
  name := Path.base ((d.resolved? source).getD source)

/-- A path leads to a regular file; a device is none. -/
def isRegular (d : Disk) (p : Text) : Bool :=
  match d.find true p with
  | .ok (_, n) => n.isFile && !n.isDevice
  | .error _ => false

/-- The paths of the sources in a directory, in byte order. -/
def discover (d : Disk) (dir suffix : Text) : Except Failure (List Text) :=
  let suffix := if suffix = [] then defaultSuffix else suffix
  match d.readDir dir with
  | .error e => .error (.wrap ("failed to read tests directory " ++ dir) (some e.failure))
  | .ok names =>
    let paths := (names.filter (·.endsWith suffix)).map fun n => Path.join [dir, n]
    .ok ((paths.filter (isRegular d)).mergeSort Text.le)

/-- The paths that contain a pattern, in order. -/
def filter (paths : List Text) (pattern : Text) : List Text :=
  paths.filter (·.includes pattern)

/-- The refusal of two sources with one name. -/
def sameName (first second name : Text) : Failure :=
  .plain ("test sources " ++ first ++ " and " ++ second ++ " share the name " ++ Text.quoted name)

/-- The cases of the paths, after the cases `seen` (latest first). -/
def distinctAfter (d : Disk) : (seen : List Case) → List Text → Except Failure (List Case)
  | seen, [] => .ok seen.reverse
  | seen, p :: ps =>
    let c := caseOf d p
    match seen.find? fun s => s.name = c.name with
    | some s => .error (sameName s.source p c.name)
    | none => distinctAfter d (c :: seen) ps

/-- The cases of a directory that match a pattern. -/
def select (d : Disk) (dir suffix pattern : Text) : Except Failure (List Case) :=
  match discover d dir suffix with
  | .error f => .error f
  | .ok paths => distinctAfter d [] (filter paths pattern)

end Gauntlet.Selection
