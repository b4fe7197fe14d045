import Gauntlet.Disk
import Gauntlet.Shell.Pattern

/-! # Fields

  An expanded word is cut into fields at separators, as far as it came from expansions
  outside quotes. Separators that are white space come in runs and count for nothing at
  the start and at the end; any other separator ends one field.
-/

namespace Gauntlet.Shell

open Text

/-- A part of an expanded word. -/
inductive Part where
  /-- Bytes that stay together. -/
  | whole (m : Pattern.Marked)
  /-- Bytes that are cut at separators; `none` stands between two arguments. -/
  | loose (t : List (Option UInt8))
  /-- The end of a field. -/
  | cut

def usualSeparators : Text := " \t\n"

/-- The fields found so far. -/
structure Fields where
  /-- Last first. -/
  finished : List Pattern.Marked := []
  current : Option Pattern.Marked := none
  /-- How many fields may still be ended by a separator. -/
  left : Option Nat := none
  /-- What of the current field counts, if the rest is separators. -/
  kept : Option Nat := none
  /-- The last separator was white space. -/
  white : Bool := false
  /-- Separators after the one that ended a field are being skipped. -/
  skipping : Bool := false

namespace Fields

def finish (f : Fields) : Fields :=
  { f with finished := f.current.getD [] :: f.finished, current := none }

def join (f : Fields) (m : Pattern.Marked) : Fields :=
  { f with current := some (f.current.getD [] ++ m) }

/-- Takes in a byte that may be a separator, when none are being skipped. -/
def take (separators : Text) (f : Fields) (c : Option UInt8) : Fields :=
  let separates := c.all separators.contains
  let white := separates && c.all usualSeparators.contains
  let added := f.join (c.toList.map (·, false))
  if f.left = some 0 then
    if white then { added with kept := f.kept.or (some (f.current.getD []).length) }
    else { added with kept := if separates && f.white then f.kept else none, white := false }
  else if !separates then added
  else if f.current.isNone && white then f
  else match f.left with
    | some 1 =>
      { added with left := some 0, kept := some (f.current.getD []).length, white }
    | left => { f.finish with left := left.map (· - 1), white, skipping := true }

/-- Takes in a byte that may be a separator. -/
def step (separators : Text) (f : Fields) (c : Option UInt8) : Fields :=
  if !f.skipping then f.take separators c
  else if !c.all separators.contains then { f with skipping := false }.take separators c
  else if c.all usualSeparators.contains then f
  else if f.white then { f with white := false }
  else { f with skipping := false }.take separators c

def add (separators : Text) (f : Fields) : Part → Fields
  | .whole m => f.join m
  | .loose t =>
    let f := t.foldl (step separators) { f with white := false }
    { f with skipping := false }
  | .cut => f.finish

/-- The fields of parts; at most `most`, if a number is given. -/
def ofParts (separators : Text) (most : Option Nat) (ps : List Part) : List Pattern.Marked :=
  let f := ps.foldl (add separators) { left := most }
  let last := match f.kept with
    | some k => f.current.map (List.take k)
    | none => f.current
  (last.toList ++ f.finished).reverse

end Fields

/-- The bytes of parts, not cut anywhere. -/
def joinParts (ps : List Part) : Pattern.Marked :=
  ps.flatMap fun
    | .whole m => m
    | .loose t => t.map fun c => (c.getD 32, false)
    | .cut => Pattern.bare " "

/-! ### File names -/

def components : Pattern.Marked → List Pattern.Marked
  | [] => [[]]
  | b :: m =>
    if b.1 = byte '/' then [] :: components m
    else match components m with
      | c :: cs => (b :: c) :: cs
      | [] => [[b]]

/-- The names in a directory that a pattern matches; a name that begins with a dot only
    if the pattern does. -/
def matchingNames (d : Disk) (dir : Text) (m : Pattern.Marked) : List Text :=
  match d.find true (if dir.isEmpty then Text.single '.' else dir) with
  | .ok (l, .dir mode t) =>
    if !(Node.dir mode t).readable then []
    else
      let hidden := m.head?.map (·.1) = some (byte '.')
      let names : List Text := if hidden then ".." :: Text.single '.' :: d.names l else d.names l
      names.filter fun n =>
        (hidden || n.head? ≠ some (byte '.')) && Pattern.matchesAll (Pattern.atoms m) n
  | _ => []

/-- The bytes that a part of a path without patterns stands for. -/
def spelt : Pattern.Marked → Text
  | [] => []
  | (b, false) :: (c, q) :: m =>
    if b = byte '\\' then c :: spelt m else b :: spelt ((c, q) :: m)
  | (b, _) :: m => b :: spelt m

def matchingPaths (d : Disk) : List Pattern.Marked → (dir : Text) → List Text
  | [], dir => [dir]
  | m :: ms, dir =>
    let slash : Text := if ms.isEmpty then [] else "/"
    if Pattern.isPattern m then
      (matchingNames d dir m).flatMap fun n =>
        let path := dir ++ n
        if ms.isEmpty then [path]
        else match d.find true path with
          | .ok (_, .dir _ _) => matchingPaths d ms (path ++ slash)
          | _ => []
    else
      let path := dir ++ spelt m
      if ms.isEmpty && !path.isEmpty && (d.lstat path).toOption.isNone then []
      else matchingPaths d ms (path ++ slash)

/-- The paths that a pattern matches, or the pattern itself. -/
def fileNames (d : Disk) (m : Pattern.Marked) : List Text :=
  let plain := Pattern.plain m
  if !Pattern.isPattern m then [plain]
  else match matchingPaths d (components m) [] with
    | [] => [plain]
    | found => found.mergeSort Text.le

end Gauntlet.Shell
