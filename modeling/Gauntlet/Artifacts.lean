import Gauntlet.Disk.Directory

/-! # Artifacts

  A case leaves two files in the scratch directory, named after the case: the
  assembly and the binary. Both are removed before the case runs, so that nothing
  left over from an earlier run can be taken for its output.
-/

namespace Gauntlet

/-- The files that one case produces. -/
structure Artifacts where
  assembly : Text
  binary : Text
  deriving DecidableEq, Repr, Inhabited

namespace Artifacts

def ofCase (scratch : Text) (c : Case) : Artifacts where
  assembly := Path.join [scratch, c.name ++ ".s"]
  binary := Path.join [scratch, c.name ++ ".out"]

/-- The failure to remove a left-over file. -/
def staleFailure (p : Text) (e : OsError) : Failure :=
  .wrap ("failed to remove stale artifact " ++ p) (some e.failure)

/-- Removes one path; a missing one is fine. -/
def discard (d : Disk) (p : Text) : Except Failure Disk :=
  match d.remove p with
  | .ok d' => .ok d'
  | .error e => if e.errno = .missing then .ok d else .error (staleFailure p e)

/-- Removes the assembly, then the binary; the first failure ends it. -/
def clean (a : Artifacts) (d : Disk) : Disk × Option Failure :=
  match discard d a.assembly with
  | .error f => (d, some f)
  | .ok d₁ =>
    match discard d₁ a.binary with
    | .error f => (d₁, some f)
    | .ok d₂ => (d₂, none)

end Artifacts

end Gauntlet
