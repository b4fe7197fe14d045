import Gauntlet.Disk

/-! # Resolved names

  The name of what a path leads to, with every symbolic link replaced by its
  target. The path is taken apart from the left; `..` takes back the component
  before it only if there are two, since a single one may itself lead elsewhere.
  A path through more than 255 links, through a file, or to nothing has no
  resolved name.
-/

namespace Gauntlet.Disk

/-- The number of symbolic links that are replaced before giving up. -/
def replacementLimit : Nat := 255

/-- A path in the making: whether it starts at the root, and its components in
    reverse. -/
structure Trail where
  rooted : Bool
  parts : List Text

def Trail.path (q : Trail) : Text :=
  if q.rooted then Path.absolute q.parts.reverse else Text.intercalate [Path.slash] q.parts.reverse

/-- The path after a `..`. -/
def Trail.up (q : Trail) : Trail :=
  match q.parts with
  | last :: second :: rest =>
    if last = Path.up then { q with parts := Path.up :: q.parts }
    else { q with parts := second :: rest }
  | _ => { q with parts := Path.up :: q.parts }

/-- Replaces links in the components still to come; `onLink` goes on when a link
    was met. -/
def resolveWith (d : Disk) (onLink : Trail → List Text → Option Trail) :
    Trail → List Text → Option Trail
  | q, [] => some q
  | q, c :: rest =>
    if c = [] ∨ c = Path.here then resolveWith d onLink q rest
    else if c = Path.up then resolveWith d onLink q.up rest
    else
      let q' : Trail := { q with parts := c :: q.parts }
      match d.find false q'.path with
      | .error _ => none
      | .ok (_, .link target) =>
        onLink (if Path.isAbsolute target then ⟨true, []⟩ else q) (Path.pieces target ++ rest)
      | .ok (_, n) => if !n.isDir && rest ≠ [] then none else resolveWith d onLink q' rest

/-- Replaces at most a number of links. -/
def resolveLinks (d : Disk) : (links : Nat) → Trail → List Text → Option Trail
  | 0 => resolveWith d fun _ _ => none
  | n + 1 => resolveWith d (resolveLinks d n)

/-- The resolved form of a path, if it has one. -/
def resolved? (d : Disk) (p : Text) : Option Text :=
  (d.resolveLinks replacementLimit ⟨Path.isAbsolute p, []⟩ (Path.pieces p)).map fun q =>
    Path.clean q.path

end Gauntlet.Disk
