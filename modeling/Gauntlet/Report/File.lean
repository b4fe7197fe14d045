import Gauntlet.Datum.Json
import Gauntlet.Datum.Yaml
import Gauntlet.Disk.Directory
import Gauntlet.Report.Content
import Gauntlet.Text.LowerCase

/-! # Report files

  The extension of the path decides the format: YAML for `.yaml` and `.yml`, in any
  case, and JSON for everything else. The directory of the file is made if it is
  missing.
-/

namespace Gauntlet.Report

inductive Format where
  | json
  | yaml
  deriving DecidableEq, Repr

def Format.ofPath (p : Text) : Format :=
  let ext := Text.lowerCase (Path.extension p)
  if ext = ".yaml" ∨ ext = ".yml" then .yaml else .json

/-- The report as text; JSON cannot hold every instant. -/
def encode (r : Report) : Format → Except Failure Text
  | .yaml => .ok (Yaml.document r.datum)
  | .json =>
    match Json.instantFault? r.start with
    | some f => .error (.wrap "failed to encode report" (some (.plain f.message)))
    | none => .ok (Json.ofDatum 0 r.datum)

def writeFile (d : Disk) (p : Text) (run : Run) : Disk × Option Failure :=
  match (Report.ofRun run).encode (.ofPath p) with
  | .error f => (d, some f)
  | .ok data =>
    let dir := Path.parent p
    match d.mkdirs dir 0o755 with
    | (d', some e) =>
      (d', some (.wrap ("failed to create directory " ++ dir) (some e.failure)))
    | (d', none) =>
      match d'.writeFile p data 0o644 with
      | .error e => (d', some (.wrap ("failed to write report " ++ p) (some e.failure)))
      | .ok d'' => (d'', none)

/-- The file at a path holds the report of a run. -/
def holds (d : Disk) (p : Text) (run : Run) : Bool :=
  match (Report.ofRun run).encode (.ofPath p), d.contents p with
  | .ok data, .ok found => data = found
  | _, _ => false

end Gauntlet.Report
