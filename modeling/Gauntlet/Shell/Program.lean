import Gauntlet.Disk.Directory
import Gauntlet.Shell.Tools

/-! # Programs

  A file can be started if it may be executed and is either one of the standard
  tools or a script whose first line names an interpreter. Programs without a
  slash in their name are looked up in the directories of a search path.
-/

namespace Gauntlet.Shell

def searchPath : List Text :=
  ["/usr/local/sbin", "/usr/local/bin", "/usr/sbin", "/usr/bin", "/sbin", "/bin"]

/-- How the file of a standard tool begins; the name of the tool follows. -/
def toolMark : Text := "\x7fELF"

def shellName : Text := "sh"

/-- The name of the tool that starts programs with variables set. -/
def environmentName : Text := "env"

/-- What runs when a file is started. -/
structure Program where
  /-- The standard tool that runs. -/
  tool : Text
  called : Text
  args : List Text
  deriving DecidableEq, Repr

namespace Program

/-- How much of a file is looked at to find its interpreter. -/
def headerSize : Nat := 256

/-- A blank within a line. -/
def isBlank (b : UInt8) : Bool := b = 32 || b = 9

/-- The end of the first line of a header: the line break, if one comes before the first
    zero byte, or else the last byte of the header, if a name ends before it. -/
def lineEnd? (header : Text) : Option Nat :=
  let shown := header.takeWhile (· ≠ 0)
  let line := shown.takeWhile (· ≠ 10)
  if line.length < shown.length then some line.length
  else
    let start := 2 + ((header.drop 2).takeWhile isBlank).length
    if (header.drop start).any fun b => isBlank b || b = 0 then some (header.length - 1) else none

/-- The interpreter on the first line of a script, and the one argument it may
    have. -/
def interpreter? (data : Text) : Option (Text × List Text) :=
  let header := data.take headerSize ++ Text.repeated 0 (headerSize - data.length)
  if !Text.startsWith header "#!" then none
  else match lineEnd? header with
    | none => none
    | some stop =>
      let line := ((header.take stop).reverse.dropWhile isBlank).reverse.drop 2
      let rest := line.dropWhile isBlank
      if rest.isEmpty then none
      else
        let name := rest.takeWhile fun b => !isBlank b && b ≠ 0
        match rest.drop name.length with
        | b :: more =>
          if b = 0 then some (name, [])
          else some (name, [(more.dropWhile isBlank).takeWhile (· ≠ 0)])
        | [] => some (name, [])

/-- The program that starting a file runs; an interpreter may itself be a script,
    up to a depth. -/
def load (d : Disk) : (depth : Nat) → (called path : Text) → (args : List Text) → Except Errno Program
  | 0, _, _, _ => .error .tooManyLinks
  | n + 1, called, path, args =>
    match d.find true path with
    | .error e => .error e
    | .ok (_, .file data mode t) =>
      if !(Node.file data mode t).executable then .error .denied
      else match Text.after? toolMark data with
        | some tool => .ok ⟨tool, called, args⟩
        | none =>
          match interpreter? data with
          | some (name, argument) => load d n name name (argument ++ path :: args)
          | none => .error .execFormat
    | .ok _ => .error .denied

/-- The most files that one start leads through. -/
def interpreterDepth : Nat := 6

/-- The first executable file of a name in the directories of a search path. -/
def lookUp? (d : Disk) (dirs : List Text) (name : Text) : Option Text :=
  (dirs.map fun dir => dir ++ "/" ++ name).find? fun p =>
    match d.find true p with
    | .ok (_, .file data mode t) => (Node.file data mode t).executable
    | _ => false

def nullDevice : Location := ["dev", "null"]

def fullDevice : Location := ["dev", "full"]

/-- A disk with the standard tools on it. -/
def install (d : Disk) : Disk :=
  let dirs : List Location := [["usr"], ["usr", "bin"], ["dev"]]
  let d := dirs.foldl (fun d l => d.put l (.dir 0o755 d.now)) d
  let d := d.put ["bin"] (.link "usr/bin")
  let d := [nullDevice, fullDevice].foldl
    (fun d l => d.put l (.file [] (Node.deviceBits + 0o666) d.now)) d
  (shellName :: environmentName :: Tools.names).foldl
    (fun d n => d.put ["usr", "bin", n] (.file (toolMark ++ n) 0o755 d.now)) d

end Program

end Gauntlet.Shell
