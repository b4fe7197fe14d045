import Gauntlet.Application
import Gauntlet.Archive.Unpack
import Gauntlet.Host
import Gauntlet.Run.Identifier
import Std.Time.DateTime.Timestamp

/-! # Command line

  The program works on an image of a project, a zip archive on the standard input. It
  is unpacked in the working directory of a machine that has the standard tools; an
  empty input is an empty project. What the program prints goes to the standard
  streams.
-/

namespace Gauntlet.Main

def workingDirectory : Location := [Text.ofString "work"]

/-- Where the image lies while it is unpacked. -/
def imagePath : Text := "/image.zip"

/-- A machine with the standard tools and an empty working directory. -/
def machine (now : Instant) : Disk :=
  let bare : Disk := { nodes := .empty, cwd := some workingDirectory, now }
  Shell.Program.install ((bare.put [] (.dir 0o755 now)).put workingDirectory (.dir 0o755 now))

/-- The machine with an image in its working directory. -/
def load (image : Text) (d : Disk) : Disk × Option Failure :=
  if image = [] then (d, none)
  else match d.writeFile imagePath image 0o644 with
    | .error e => (d, some e.failure)
    | .ok d =>
      let (d, _, f) := Archive.unpack d imagePath "."
      (d.removeAll imagePath, f)

def print (stream : IO.FS.Stream) (t : Text) : IO Unit := do
  stream.write (ByteArray.mk t.toArray)
  stream.flush

/-- Reads a stream to its end. -/
partial def readAll (stream : IO.FS.Stream) (read : ByteArray) : IO Text := do
  let piece ← stream.read 65536
  if piece.isEmpty then return read.toList
  readAll stream (read ++ piece)

/-- The variables of flags that are set. -/
def environment : IO Environment :=
  (Flag.all.filterMap Flag.environment).filterMapM fun name => do
    return (← IO.getEnv (Text.shown name)).map fun value => (name, Text.ofString value)

/-- Makes passes for good, one after each interval. -/
partial def watch (h : Harness) (e : Surroundings Unit) (s : Session Unit) : IO Unit := do
  IO.sleep (h.settings.runInterval.toInt / 1000000).toNat.toUInt32
  let next := s.tick h e
  let (out, err) := s.outputSince next
  print (← IO.getStdout) out
  print (← IO.getStderr) err
  watch h e next

/-- Answers the command line and returns the exit code. -/
def answer (args : List String) : IO UInt32 := do
  let now := Instant.ofNanos (← Std.Time.Timestamp.now).toNanosecondsSinceUnixEpoch.val
  let seed := (← IO.getRandomBytes 16).toList
  let surroundings : Surroundings Unit := {
    tools := ({} : Host).toolchain
    ids := fun k => Run.identifier (Run.numbered seed k)
    clock := ⟨now, 0⟩ }
  match load (← readAll (← IO.getStdin) .empty) (machine now) with
  | (_, some f) =>
    print (← IO.getStderr) (f.message ++ "\n")
    return 2
  | (d, none) =>
    let o := Application.run surroundings () d (← environment) (args.map Text.ofString)
    print (← IO.getStdout) o.out
    print (← IO.getStderr) o.err
    match o.serving, o.session with
    | some h, some s => watch h surroundings s
    | _, _ => pure ()
    return o.exitCode.toUInt32

end Gauntlet.Main

/-- Answers the command line. -/
def main (args : List String) : IO UInt32 := Gauntlet.Main.answer args
