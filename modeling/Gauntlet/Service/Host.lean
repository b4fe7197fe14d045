import Gauntlet.Numeral
import Gauntlet.Text.CodePoint
import Gauntlet.Text.Quoted

/-! # Hosts to listen on

  A host is every interface of the machine, four octets, or eight groups of sixteen bits
  with an optional zone. Groups that hold four octets are the same host as the octets.

  - `Host.read?` reads a host.
  - `Host.text` is its shortest form: the longest row of zero groups is left out.
-/

namespace Gauntlet.Service

open Text

/-- Where to listen. -/
inductive Host where
  /-- Every interface, in the form in which it was asked for. -/
  | every (form : Text)
  | octets (values : List Nat)
  | groups (values : List Nat) (zone : Text)
  deriving DecidableEq, Repr

/-! ### Reading -/

/-- A decimal number below 256 without a leading zero. -/
def octet? (t : Text) : Option Nat :=
  let n := Numeral.value t
  if !t.isEmpty && t.length ≤ 3 && t.all isDigit && (t.length = 1 || t.head? ≠ some (byte '0')) &&
    n < 256 then some n else none

/-- Four octets with dots between them. -/
def octets? (t : Text) : Option (List Nat) :=
  let parts := splitOn (byte '.') t
  if parts.length = 4 then parts.mapM octet? else none

/-- The value of a hexadecimal digit. -/
def hexDigit? (b : UInt8) : Option Nat :=
  if isDigit b then some (b.toNat - 48)
  else if Glyph.within 97 102 b then some (b.toNat - 87)
  else if Glyph.within 65 70 b then some (b.toNat - 55)
  else none

/-- A group of at most four hexadecimal digits. -/
def group? (t : Text) : Option Nat :=
  if t.isEmpty || 4 < t.length then none
  else (t.mapM hexDigit?).map (·.foldl (fun n d => n * 16 + d) 0)

/-- The two groups that hold four octets. -/
def groupsOfOctets : List Nat → List Nat
  | [a, b, c, d] => [a * 256 + b, c * 256 + d]
  | _ => []

/-- The groups of a row; the last one may be four octets if the row ends the address. -/
def groupRow? (ends : Bool) : List Text → Option (List Nat)
  | [] => some []
  | [g] => match group? g with
    | some n => some [n]
    | none => if ends then (octets? g).map groupsOfOctets else none
  | g :: gs => do return (← group? g) :: (← groupRow? ends gs)

/-- The groups of a part of an address; none if it is empty. -/
def groupsOf? (ends : Bool) (t : Text) : Option (List Nat) :=
  groupRow? ends (if t.isEmpty then [] else splitOn (byte ':') t)

/-- The parts around the first two colons in a row. -/
def atGap? : Text → Option (Text × Text)
  | [] => none
  | [_] => none
  | a :: b :: t =>
    if a = byte ':' && b = byte ':' then some ([], t)
    else (atGap? (b :: t)).map fun (l, r) => (a :: l, r)

/-- Eight groups, or fewer around two colons. -/
def eightGroups? (t : Text) : Option (List Nat) :=
  match atGap? t with
  | some (l, r) => do
    let ls ← groupsOf? false l
    let rs ← groupsOf? true r
    if ls.length + rs.length < 8 then
      some (ls ++ List.replicate (8 - ls.length - rs.length) 0 ++ rs)
    else none
  | none => do
    let gs ← groupsOf? true t
    if gs.length = 8 then some gs else none

/-- Eight groups and the zone that may follow a percent sign. -/
def zoned? (t : Text) : Option (List Nat × Text) :=
  match cut? (byte '%') t with
  | some (a, zone) => if zone.isEmpty then none else (eightGroups? a).map (·, zone)
  | none => (eightGroups? t).map (·, [])

def Host.ofOctets (os : List Nat) : Host :=
  if os.all (· = 0) then .every "0.0.0.0" else .octets os

def Host.ofGroups (gs : List Nat) (zone : Text) : Host :=
  match gs with
  | [0, 0, 0, 0, 0, 0xFFFF, g, h] => .ofOctets [g / 256, g % 256, h / 256, h % 256]
  | _ =>
    if gs.all (· = 0) then .every ("::" ++ (if zone = [] then ([] : Text) else "%" ++ zone))
    else .groups gs zone

/-- A host that needs no inquiry: none at all, the local name, or a numeric address. -/
def Host.read? (t : Text) : Option Host :=
  if t.isEmpty then some (.every [])
  else if t.lower = "localhost" || t.lower = "localhost." then some (.octets [127, 0, 0, 1])
  else match octets? t with
    | some os => some (.ofOctets os)
    | none => (zoned? t).map fun (gs, zone) => .ofGroups gs zone

/-! ### Writing -/

/-- A group without leading zeros. -/
def groupText (n : Nat) : Text :=
  match (hexDigits 4 n).dropWhile (· = byte '0') with
  | [] => "0"
  | t => t

/-- The number of zeros at the beginning of a row. -/
def zeroRun (gs : List Nat) : Nat := (gs.takeWhile (· = 0)).length

/-- The place and the length of the first of the longest rows of zeros. -/
def longestZeros (gs : List Nat) : Nat × Nat :=
  (List.range gs.length).foldl (fun (best : Nat × Nat) i =>
    let n := zeroRun (gs.drop i)
    if best.2 < n then (i, n) else best) (0, 0)

/-- Groups with colons between them; the longest row of two or more zeros is left out. -/
def groupsText (gs : List Nat) : Text :=
  let row (gs : List Nat) : Text := intercalate ":" (gs.map groupText)
  let (i, n) := longestZeros gs
  if n < 2 then row gs else row (gs.take i) ++ "::" ++ row (gs.drop (i + n))

/-- A host in its shortest form. -/
def Host.text : Host → Text
  | every form => form
  | octets os => intercalate "." (os.map Numeral.ofNat)
  | groups gs zone => groupsText gs ++ (if zone = [] then ([] : Text) else "%" ++ zone)

end Gauntlet.Service
