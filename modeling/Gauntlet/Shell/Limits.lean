import Gauntlet.Numeral

/-! # Limits of processes

  What a process may use of each resource. The soft limit is the one that counts; it can be
  raised up to the hard limit, which can only be lowered.
-/

namespace Gauntlet.Shell

open Text

structure Resource where
  letter : Char
  name : String
  /-- The size of the unit in which the limit is shown. -/
  unit : Nat

/-- The limit of a resource; without a number there is none. -/
structure Limit where
  soft : Option Nat := none
  hard : Option Nat := none
  deriving DecidableEq, Repr, Inhabited

/-- The limits that are not the usual ones, by the letters of their resources. -/
abbrev Limits := List (Char × Limit)

/-- Which limits are meant. -/
structure Bounds where
  soft : Bool := true
  hard : Bool := true

namespace Limits

def resources : List Resource :=
  [⟨'t', "time(seconds)", 1⟩, ⟨'f', "file(blocks)", 512⟩, ⟨'d', "data(kbytes)", 1024⟩,
   ⟨'s', "stack(kbytes)", 1024⟩, ⟨'c', "coredump(blocks)", 512⟩, ⟨'m', "memory(kbytes)", 1024⟩,
   ⟨'l', "locked memory(kbytes)", 1024⟩, ⟨'p', "process", 1⟩, ⟨'n', "nofiles", 1⟩,
   ⟨'v', "vmemory(kbytes)", 1024⟩, ⟨'w', "locks", 1⟩, ⟨'r', "rtprio", 1⟩]

/-- The limits at the beginning, where there are any. -/
def usual : Limits :=
  [('s', ⟨some (8192 * 1024), none⟩), ('c', ⟨some 0, none⟩),
   ('l', ⟨some (8192 * 1024), some (8192 * 1024)⟩), ('n', ⟨some 20000, some 20000⟩),
   ('r', ⟨some 0, some 0⟩)]

def of (ls : Limits) (letter : Char) : Limit := ((ls.lookup letter).or (usual.lookup letter)).getD {}

def shown (ls : Limits) (b : Bounds) (r : Resource) : Text :=
  let l := ls.of r.letter
  match if b.soft then l.soft else l.hard with
  | some n => Numeral.ofNat (n / r.unit) ++ "\n"
  | none => "unlimited\n"

def table (ls : Limits) (b : Bounds) : Text :=
  resources.flatMap fun r =>
    ofString r.name ++ spaces (20 - r.name.length) ++ " " ++ ls.shown b r

def within : Option Nat → Option Nat → Bool
  | _, none => true
  | some a, some b => a ≤ b
  | none, some _ => false

/-- Changes a limit, or tells why that is not possible. -/
def change (ls : Limits) (b : Bounds) (r : Resource) (value : Option Nat) : Except Text Limits :=
  let old := ls.of r.letter
  let new : Limit :=
    { soft := if b.soft then value else old.soft, hard := if b.hard then value else old.hard }
  let refused (why : Text) : Except Text Limits := .error ("error setting limit (" ++ why ++ ")")
  if !within new.soft new.hard then refused "Invalid argument"
  else if !within new.hard old.hard then refused "Operation not permitted"
  else .ok ((r.letter, new) :: ls.filter (·.1 ≠ r.letter))

end Limits

end Gauntlet.Shell
