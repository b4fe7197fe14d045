import Gauntlet.Archive.Directory
import Gauntlet.Archive.Target
import Gauntlet.Disk.Directory

/-! # Unpacking an archive

  An archive updates a directory: an entry is written only if its target is
  missing or older. Each file is written to a temporary file beside its target
  and moved into place once contents, mode and time are set, so a failing entry
  leaves its target as it was. The first failing entry ends the unpacking.
-/

namespace Gauntlet.Archive

/-- A disk together with the failure that stopped the work on it, if any. -/
abbrev Progress := Disk × Option Failure

/-- What the names of temporary files beside a target start with. -/
def temporaryLead (target : Text) : Text := "." ++ Path.base target ++ ".tmp-"

/-- The path of a temporary file beside a target, with a number at its end. -/
def temporaryPath (target : Text) (number : Nat) : Text :=
  Path.join [Path.parent target, temporaryLead target ++ Numeral.ofNat number]

/-- How many numbers are tried. -/
def attempts : Nat := 10000

/-- A new file in the place of a temporary one: its path, its location, and the disk that
    has it. -/
abbrev Temporary := Text × Location × Disk

/-- Makes a temporary file beside a target, with the first number that is free of those drawn
    from a given attempt on. -/
def numberedTemporary (d : Disk) (target : Text) :
    (left attempt : Nat) → Except Failure Temporary
  | 0, _ => .error (.plain ("createtemp " ++
      Path.join [Path.parent target, temporaryLead target ++ "*"] ++ ": " ++ Errno.exists.text))
  | left + 1, attempt =>
    let path := temporaryPath target (d.draws target attempt)
    match d.createNew path with
    | .ok (l, d') => .ok (path, l, d')
    | .error e =>
      if e.errno = .exists then numberedTemporary d target left (attempt + 1)
      else .error e.failure

/-- Makes a temporary file beside a target; beside the root directory there is no place. -/
def createTemporary (d : Disk) (target : Text) : Except Failure Temporary :=
  if (temporaryLead target).contains Path.slash then
    .error (.plain ("createtemp " ++ temporaryLead target ++ "*: pattern contains path separator"))
  else numberedTemporary d target attempts 0

/-- Fills a new temporary file and moves it to its target. -/
def fillTemporary (e : Entry) (target : Text) (contents : Except Fault Text) (t : Temporary) :
    Except Failure Disk :=
  let (temporary, l, d) := t
  let mode := if e.permissions = 0 then 0o644 else e.permissions
  match contents with
  | .error f => .error f.failure
  | .ok data =>
    match (d.append l data).chmod temporary mode with
    | .error err => .error err.failure
    | .ok d =>
      match d.setModified temporary e.modified with
      | .error err => .error err.failure
      | .ok d =>
        match d.rename temporary target with
        | .error err => .error err.failure
        | .ok d => .ok d

/-- Writes a target by way of a temporary file, which is removed on failure. -/
def writeByTemporary (d : Disk) (e : Entry) (target : Text) (contents : Except Fault Text) :
    Progress :=
  match createTemporary d target with
  | .error f => (d, some f)
  | .ok t =>
    match fillTemporary e target contents t with
    | .ok d => (d, none)
    | .error f =>
      let (temporary, _, d) := t
      (match d.remove temporary with
        | .ok d' => d'
        | .error _ => d, some f)

def extract (archive image : Text) (d : Disk) (e : Entry) (target : Text) : Progress :=
  match d.mkdirs (Path.parent target) 0o755 with
  | (d, some err) => (d, some err.failure)
  | (d, none) =>
    match e.opened archive image with
    | .error f => (d, some f.failure)
    | .ok contents => writeByTemporary d e target contents

/-- The target exists and is not older than the entry. -/
def upToDate (d : Disk) (e : Entry) (target : Text) : Bool :=
  match d.stat target with
  | .ok (_, n) => !(n.modified.before e.modified)
  | .error _ => false

/-- What one entry does to the disk: the number of files written, and a failure if
    it stops the unpacking. -/
def unpackEntry (archive image root : Text) (d : Disk) (e : Entry) : Disk × Nat × Option Failure :=
  match target root e.name with
  | .error f => (d, 0, some f)
  | .ok t =>
    match e.kind with
    | .directory =>
      let (d, err) := d.mkdirs t (directoryMode e.permissions)
      (d, 0, err.map OsError.failure)
    | .special => (d, 0, none)
    | .regular =>
      if upToDate d e t then (d, 0, none)
      else match extract archive image d e t with
        | (d, none) => (d, 1, none)
        | (d, some f) => (d, 0, some (.wrap ("failed to extract " ++ e.name) (some f)))

/-- Unpacks entries in order until one fails; `written` files came before. -/
def unpackEntries (archive image root : Text) :
    Disk → (written : Nat) → List Entry → Disk × Nat × Option Failure
  | d, written, [] => (d, written, none)
  | d, written, e :: es =>
    match unpackEntry archive image root d e with
    | (d, n, some f) => (d, written + n, some f)
    | (d, n, none) => unpackEntries archive image root d (written + n) es

/-- Unpacks an archive into a directory: the disk after it, the number of files
    written, and the failure that stopped it. -/
def unpack (d : Disk) (archive dest : Text) : Disk × Nat × Option Failure :=
  let cannotOpen (f : Failure) : Disk × Nat × Option Failure :=
    (d, 0, some (.wrap "failed to open archive" (some f)))
  match d.contents archive with
  | .error e => cannotOpen e.failure
  | .ok image =>
    match entries image with
    | .error f => cannotOpen f.failure
    | .ok es =>
      match d.absolute dest with
      | .error f => (d, 0, some f)
      | .ok root => unpackEntries archive image root d 0 es

end Gauntlet.Archive
