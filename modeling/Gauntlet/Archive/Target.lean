import Gauntlet.Path
import Gauntlet.Failure

/-! # Where archive entries go

  The target of an entry is its name below the destination. A name that leads out
  of the destination is refused.
-/

namespace Gauntlet.Archive

/-- The refusal of an entry that leads out of the destination. -/
def escapes (name : Text) : Failure :=
  .plain ("archive entry " ++ Text.quoted name ++ " escapes destination")

/-- The path of an entry below a destination given as an absolute, cleaned path. -/
def target (root name : Text) : Except Failure Text :=
  let t := Path.join [root, name]
  if t ≠ root ∧ !t.startsWith (root ++ [Path.slash]) then .error (escapes name) else .ok t

/-- The permission bits of a directory entry: the owner always gets full access, and
    an entry without any bits gets the usual ones. -/
def directoryMode (mode : Nat) : Nat :=
  let bits := mode &&& 0o777
  if bits = 0 then 0o755 else bits ||| 0o700

end Gauntlet.Archive
