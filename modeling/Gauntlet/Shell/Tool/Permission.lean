import Gauntlet.Shell.Tool.Removing

/-! # Setting permissions

  Permissions are asked for as an octal number or as clauses such as `u+x` or `go=u`, which
  are applied one after the other. A clause that names no class of users leaves alone the
  bits that new files do not get.
-/

namespace Gauntlet.Shell.Tools

open Text

/-! ### Clauses -/

/-- What a clause does with its bits. -/
inductive Change where
  | add
  | remove
  | replace
  deriving DecidableEq, Repr

/-- The bits that a clause is about. -/
inductive Bits where
  | fixed (bits : Nat)
  /-- Given bits, and leave to execute if the file is a directory or can be executed. -/
  | executing (bits : Nat)
  /-- The bits that one class has, for the others too; `shift` is the place of the class. -/
  | copied (shift : Nat)
  deriving DecidableEq, Repr

/-- One clause; the bits of the classes it names, none if it names no class. -/
structure Clause where
  affected : Nat
  change : Change
  bits : Bits
  deriving DecidableEq, Repr

def classBits? (b : UInt8) : Option Nat :=
  match Char.ofNat b.toNat with
  | 'u' => some 0o4700
  | 'g' => some 0o2070
  | 'o' => some 0o1007
  | 'a' => some 0o7777
  | _ => none

/-- The change that a sign stands for. -/
def change? (b : UInt8) : Option Change :=
  match Char.ofNat b.toNat with
  | '+' => some .add
  | '-' => some .remove
  | '=' => some .replace
  | _ => none

def letterBits? (b : UInt8) : Option Nat :=
  match Char.ofNat b.toNat with
  | 'r' => some 0o444
  | 'w' => some 0o222
  | 'x' => some 0o111
  | 'X' => some 0
  | 's' => some 0o6000
  | 't' => some 0o1000
  | _ => none

def octalMode? (t : Text) : Option Nat :=
  if t.isEmpty || !t.all fun b => 48 ≤ b && b ≤ 55 then none
  else
    let n : Nat := t.foldl (fun n b => n * 8 + (b.toNat - 48)) 0
    if n ≤ 0o7777 then some n else none

/-- The bits after a sign, and what follows them. -/
def bitsAfter (affected : Nat) (t : Text) : Option (Nat × Bits × Text) :=
  let digits := t.takeWhile fun b => 48 ≤ b && b ≤ 55
  let rest := t.drop digits.length
  if !digits.isEmpty then
    if affected ≠ 0 || !rest.isEmpty then none
    else (octalMode? digits).map fun n => (0o7777, .fixed n, rest)
  else match t with
    | b :: more =>
      if b = byte 'u' then some (affected, .copied 6, more)
      else if b = byte 'g' then some (affected, .copied 3, more)
      else if b = byte 'o' then some (affected, .copied 0, more)
      else
        let ls := t.takeWhile fun b => (letterBits? b).isSome
        let bits := (ls.filterMap letterBits?).foldl (· ||| ·) 0
        let kind : Bits := if ls.contains (byte 'X') then .executing bits else .fixed bits
        some (affected, kind, t.drop ls.length)
    | [] => some (affected, .fixed 0, [])

/-- The changes of one clause, one for each sign. -/
def changes (affected : Nat) : (fuel : Nat) → Text → Option (List Clause)
  | 0, _ => none
  | n + 1, t =>
    match t with
    | [] => some []
    | b :: rest =>
      match change? b with
      | none => none
      | some change =>
        match bitsAfter affected rest with
        | none => none
        | some (affected', bits, rest) =>
          (changes affected n rest).map fun cs => ⟨affected', change, bits⟩ :: cs

/-- The changes of a clause with the classes in front. -/
def clause? (t : Text) : Option (List Clause) :=
  let who := t.takeWhile fun b => (classBits? b).isSome
  let affected := (who.filterMap classBits?).foldl (· ||| ·) 0
  let rest := t.drop who.length
  if rest.isEmpty then none else changes affected (rest.length + 1) rest

/-- Permissions that are asked for. -/
def clauses? (wanted : Text) : Option (List Clause) :=
  if wanted.head?.any isDigit then
    (octalMode? wanted).map fun n => [⟨0o7777, .replace, .fixed n⟩]
  else ((splitOn (byte ',') wanted).mapM clause?).map List.flatten

/-- The bits of one class, for all three. -/
def spread (mode shift : Nat) : Nat := (mode >>> shift) % 8 * 0o111

def Clause.apply (mask : Nat) (dir : Bool) (mode : Nat) (c : Clause) : Nat :=
  let bits := match c.bits with
    | .fixed n => n
    | .executing n => if dir || mode &&& 0o111 ≠ 0 then n ||| 0o111 else n
    | .copied shift => spread mode shift
  let limit := if c.affected = 0 then 0o7777 - (mask &&& 0o777) else c.affected
  let bits := bits &&& limit
  match c.change with
  | .add => mode ||| bits
  | .remove => mode &&& (0o7777 - bits)
  | .replace => (mode &&& (if c.affected = 0 then 0 else 0o7777 - c.affected)) ||| bits

/-- Permissions changed as asked for. -/
def adjusted (mask : Nat) (dir : Bool) (cs : List Clause) (mode : Nat) : Nat :=
  cs.foldl (Clause.apply mask dir) mode

/-- Permissions changed as asked for, if that makes sense. -/
def changedMode? (mask : Nat) (wanted : Text) (mode : Nat) : Option Nat :=
  (clauses? wanted).map fun cs => adjusted mask false cs mode

/-! ### The tool -/

def modeLetters (mode : Nat) : Text :=
  let letter (bit : Nat) (c : Char) : UInt8 := if (mode >>> bit) % 2 = 1 then byte c else byte '-'
  let last (bit special : Nat) (both only : Char) : UInt8 :=
    if (mode >>> special) % 2 = 1 then
      (if (mode >>> bit) % 2 = 1 then byte both else byte only)
    else letter bit 'x'
  [letter 8 'r', letter 7 'w', last 6 11 's' 'S', letter 5 'r', letter 4 'w', last 3 10 's' 'S',
   letter 2 'r', letter 1 'w', last 0 9 't' 'T']

def modeDigits (mode : Nat) : Text :=
  let ds := Numeral.octal mode
  repeated 48 (4 - ds.length) ++ ds

/-- Stands for the option that has a name only. -/
def referenceLetter : Char := '\x01'

/-- The options of the tool; letters of permissions are none. -/
def permissionOptions : Known where
  letters := ['R', 'v', 'c', 'f']
  valued := [referenceLetter]
  names := [("recursive", 'R'), ("verbose", 'v'), ("changes", 'c'), ("silent", 'f'), ("quiet", 'f'),
    ("reference", referenceLetter)]

/-- Which changes are told: all, or those that change something. -/
def Options.telling (o : Options) : Option Char :=
  (o.given.filter fun (c, _) => c = 'v' || c = 'c').getLast?.map (·.1)

/-- An argument that looks like an option but takes permissions away. -/
def takesAway (a : Text) : Bool :=
  match a with
  | d :: b :: _ =>
    d = byte '-' && (("rwxXstugoa,+=".toList.map byte).contains b || (48 ≤ b && b ≤ 55))
  | _ => false

/-- How a call of the tool goes about it. -/
structure Marking where
  options : Options
  clauses : List Clause
  /-- It is said when the bits that new files do not get have been left alone. -/
  wary : Bool

def mark (m : Marking) (p : Progress) (f : Text) (l : Location) (n : Node) : Progress :=
  let old := n.mode
  let new := adjusted p.disk.mask n.isDir m.clauses old
  let p := { p with disk := p.disk.put l (n.withMode (new &&& 0o777)) }
  let shown (mode : Nat) : Text := modeDigits mode ++ " (" ++ modeLetters mode ++ ")"
  let p :=
    if new ≠ old && m.options.telling.isSome then
      p.saying ("mode of " ++ inQuotes f ++ " changed from " ++ shown old ++ " to " ++ shown new)
    else if m.options.telling = some 'v' then
      p.saying ("mode of " ++ inQuotes f ++ " retained as " ++ shown new)
    else p
  let expected := adjusted 0 n.isDir m.clauses old
  if m.wary && new &&& (0o7777 - expected) ≠ 0 then
    p.complaining (quotedIfSpecial f ++ ": new permissions are " ++ modeLetters new ++ ", not " ++
      modeLetters expected)
  else p

/-- A path cannot be got at. -/
def Marking.failing (m : Marking) (p : Progress) (f why : Text) : Progress :=
  let p := if m.options.has 'f' then { p with failed := true } else p.complaining why
  if m.options.telling = some 'v' then p.saying (inQuotes f ++ " could not be accessed") else p

/-- Sets the permissions of what stands at a location and, if asked for, of what is below it;
    links below it are passed over. -/
def markBelow (m : Marking) : (fuel : Nat) → (f : Text) → Location → Node → Progress → Progress
  | 0, _, _, _, p => p
  | k + 1, f, l, n, p =>
    let p := mark m p f l n
    let n := (p.disk.node? l).getD n
    if !(m.options.has 'R' && n.isDir) then p
    else if !n.readable then
      m.failing p f ("cannot read directory " ++ inQuotes f ++ ": " ++ reason .denied)
    else (p.disk.names l).foldl (fun p name =>
      let path := within f name
      if !n.executable then
        m.failing p path ("cannot access " ++ inQuotes path ++ ": " ++ reason .denied)
      else match p.disk.node? (l ++ [name]) with
        | some (.link _) =>
          if m.options.telling = some 'v' then
            p.saying ("neither symbolic link " ++ inQuotes path ++ " nor referent has been changed")
          else p
        | some n => markBelow m k path (l ++ [name]) n p
        | none => p) p

/-- Sets the permissions of a path and, if asked for, of what is below it. -/
def markAll (m : Marking) (p : Progress) (f : Text) : Progress :=
  let failed := m.failing p f
  match p.disk.stat f with
  | .error e =>
    match e.errno, p.disk.lstat f with
    | .missing, .ok _ => failed ("cannot operate on dangling symlink " ++ inQuotes f)
    | errno, _ => failed ("cannot access " ++ inQuotes f ++ ": " ++ reason errno)
  | .ok (l, n) => markBelow m (p.disk.nodes.pairs.length + 1) f l n p

def chmod (d : Disk) (args : List Text) : ToolResult :=
  let free := args.takeWhile fun (a : Text) => a ≠ "--"
  let away := free.filter takesAway
  let args := free.filter (fun a => !takesAway a) ++ args.drop free.length
  opting d permissionOptions args fun o =>
    let (wanted, files) : Option Text × List Text :=
      if !away.isEmpty then (some (intercalate "," away), o.operands)
      else if o.has referenceLetter then (none, o.operands)
      else (o.operands.head?, o.operands.drop 1)
    let reference : Option Nat := (o.value? referenceLetter).bind fun r =>
      (d.stat r).toOption.map fun (_, n) => n.mode
    match wanted, o.value? referenceLetter with
    | none, none => misused d "missing operand"
    | none, some r =>
      match reference with
      | none => { disk := d, status := 1, said :=
          [.complaint ("failed to get attributes of " ++ inQuotes r ++ ": " ++ reason .missing)] }
      | some mode =>
        if files.isEmpty then misused d "missing operand"
        else (files.foldl (markAll ⟨o, [⟨0o7777, .replace, .fixed mode⟩], false⟩) { disk := d }).result
    | some w, _ =>
      if files.isEmpty then
        misused d (if away.isEmpty then "missing operand after " ++ inQuotes w else "missing operand")
      else match clauses? w with
        | none => misused d ("invalid mode: " ++ inQuotes w)
        | some cs => (files.foldl (markAll ⟨o, cs, !away.isEmpty⟩) { disk := d }).result

end Gauntlet.Shell.Tools
