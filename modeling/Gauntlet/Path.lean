import Gauntlet.Text

/-! # Path names

  Operations on path names that look at the name only, never at the disk. The
  cleaned form of a name has no empty and no `.` component, and `..` only at the
  start of a relative name.
-/

namespace Gauntlet.Path

/-- The byte between components. -/
def slash : UInt8 := 47

/-- The component for the directory itself. -/
def here : Text := [46]

/-- The component for the parent directory. -/
def up : Text := [46, 46]

/-- The name starts at the root directory. -/
def isAbsolute (p : Text) : Bool := p.head? = some slash

/-- The components between slashes, empty ones included. -/
def pieces (p : Text) : List Text := Text.splitOn slash p

/-- Walks over the components with the ones kept so far in reverse: `..` takes
    one back, and at the root it does nothing. -/
def reduce (rooted : Bool) : (kept : List Text) → List Text → List Text
  | kept, [] => kept.reverse
  | kept, c :: cs =>
    if c = [] ∨ c = here then reduce rooted kept cs
    else if c = up then
      match kept with
      | [] => reduce rooted (if rooted then [] else [up]) cs
      | k :: ks => if k = up then reduce rooted (up :: k :: ks) cs else reduce rooted ks cs
    else reduce rooted (c :: kept) cs

/-- The components of the cleaned name. -/
def components (p : Text) : List Text := reduce (isAbsolute p) [] (pieces p)

/-- The name of a list of components below the root. -/
def absolute (cs : List Text) : Text := slash :: Text.intercalate [slash] cs

/-- The name of a list of components below the current directory. -/
def relative (cs : List Text) : Text := if cs = [] then here else Text.intercalate [slash] cs

/-- The shortest name that means the same by its form alone. -/
def clean (p : Text) : Text :=
  if isAbsolute p then absolute (components p) else relative (components p)

/-- The cleaned name of `parts` below each other; empty leading parts are left out. -/
def join (parts : List Text) : Text :=
  match parts.dropWhile (· = []) with
  | [] => []
  | ps => clean (Text.intercalate [slash] ps)

/-- The name without trailing slashes. -/
def withoutTrailing (p : Text) : Text := (p.reverse.dropWhile (· = slash)).reverse

/-- The last component of a name: `.` for the empty name, `/` for the root. -/
def base (p : Text) : Text :=
  if p = [] then here
  else
    let last := ((withoutTrailing p).reverse.takeWhile (· ≠ slash)).reverse
    if last = [] then [slash] else last

/-- The cleaned name of the directory that holds a name. -/
def parent (p : Text) : Text := clean (p.reverse.dropWhile (· ≠ slash)).reverse

/-- The last component from its last dot on. -/
def extension (p : Text) : Text :=
  match Text.cutLast? 46 (p.reverse.takeWhile (· ≠ slash)).reverse with
  | some (_, ext) => 46 :: ext
  | none => []

/-- A name as seen from a directory: a relative name is put below it. -/
def anchor (dir p : Text) : Text := if isAbsolute p then clean p else join [dir, p]

end Gauntlet.Path
