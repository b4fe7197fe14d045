import Gauntlet.Text

/-! # Patterns

  A pattern matches whole texts: `*` stands for any bytes, `?` for one byte, and a
  bracket expression for one byte of a set. Quoted bytes stand for themselves, and so
  does a byte after a backslash.
-/

namespace Gauntlet.Shell

structure ByteClass where
  name : String
  holds : UInt8 → Bool

/-- What a bracket expression lists. -/
inductive Member where
  | range (lo hi : UInt8)
  | named (name : String)
  deriving DecidableEq, Repr

inductive Atom where
  | exactly (b : UInt8)
  | one
  | many
  | among (negated : Bool) (members : List Member)
  deriving DecidableEq, Repr

namespace Pattern

open Text

/-- Bytes of an expanded word; `true` marks a quoted one. -/
abbrev Marked := List (UInt8 × Bool)

def quoted (t : Text) : Marked := t.map (·, true)

def bare (t : Text) : Marked := t.map (·, false)

def plain (m : Marked) : Text := m.map (·.1)

/-! ### Sets of bytes -/

/-- A byte that shows on paper. -/
def isGraphic (b : UInt8) : Bool := 33 ≤ b && b ≤ 126

def isAlphanumeric (b : UInt8) : Bool := isLetter b || isDigit b

def classes : List ByteClass :=
  [⟨"alnum", isAlphanumeric⟩, ⟨"alpha", isLetter⟩, ⟨"blank", fun b => b = 32 || b = 9⟩,
   ⟨"cntrl", fun b => b < 32 || b = 127⟩, ⟨"digit", isDigit⟩, ⟨"graph", isGraphic⟩,
   ⟨"lower", isLower⟩, ⟨"print", fun b => b = 32 || isGraphic b⟩,
   ⟨"punct", fun b => isGraphic b && !isAlphanumeric b⟩,
   ⟨"space", fun b => b = 32 || (9 ≤ b && b ≤ 13)⟩, ⟨"upper", isUpper⟩,
   ⟨"xdigit", fun b => isDigit b || (97 ≤ b && b ≤ 102) || (65 ≤ b && b ≤ 70)⟩]

/-- A byte is at most another, both taken with a sign. -/
def signedLe (a b : UInt8) : Bool := a + 128 ≤ b + 128

/-- A byte is in what a bracket expression lists. -/
def admits (b : UInt8) : Member → Bool
  | .range lo hi => signedLe lo b && signedLe b hi
  | .named name => classes.any fun c => c.name = name && c.holds b

/-- The name of a class at the start, after the bracket that opens it, and what follows. -/
def className? (m : Marked) : Option (String × Marked) :=
  classes.findSome? fun c =>
    let spelt := bare (ofString (":" ++ c.name ++ ":]"))
    if spelt.isPrefixOf m then some (c.name, m.drop spelt.length) else none

/-- A byte that stands for itself in a bracket expression, perhaps after a backslash, and
    what follows. -/
def literal? : Marked → Option (UInt8 × Marked)
  | [] => none
  | (b, marked) :: m =>
    if !marked && b = byte '\\' then
      match m with
      | (c, _) :: m => some (c, m)
      | [] => none
    else some (b, m)

/-- What a bracket expression lists, up to the closing bracket, and what follows it; a
    bracket that comes first does not close it. -/
def listed? : (fuel : Nat) → (first : Bool) → Marked → Option (List Member × Marked)
  | 0, _, _ => none
  | n + 1, first, m =>
    let more (x : Member) (rest : Marked) : Option (List Member × Marked) :=
      (listed? n false rest).map fun (xs, rest) => (x :: xs, rest)
    match m with
    | [] => none
    | b :: rest =>
      if b = (byte ']', false) && !first then some ([], rest)
      else match if b = (byte '[', false) then className? rest else none with
        | some (name, rest) => more (.named name) rest
        | none =>
          match literal? m with
          | none => none
          | some (lo, rest) =>
            match rest with
            | (d, false) :: e :: tail =>
              if d = byte '-' && e ≠ (byte ']', false) then
                match literal? (e :: tail) with
                | some (hi, rest) => more (.range lo hi) rest
                | none => none
              else more (.range lo lo) rest
            | _ => more (.range lo lo) rest

/-! ### Matching -/

def someEnd (p : Text → Bool) : Text → Bool
  | [] => p []
  | b :: t => p (b :: t) || someEnd p t

/-- The atoms of a pattern of which the first `skip` bytes have been read already. -/
def atomsAfter : (skip : Nat) → Marked → List Atom
  | _, [] => []
  | k + 1, _ :: m => atomsAfter k m
  | 0, (b, true) :: m => .exactly b :: atomsAfter 0 m
  | 0, (b, false) :: m =>
    if b = byte '*' then .many :: atomsAfter 0 m
    else if b = byte '?' then .one :: atomsAfter 0 m
    else if b = byte '\\' then
      match m with
      | (c, _) :: _ => .exactly c :: atomsAfter 1 m
      | [] => [.exactly b]
    else if b = byte '[' then
      let negated := m.head? = some (byte '!', false)
      let body := if negated then m.tail else m
      match listed? (m.length + 1) true body with
      | some (members, rest) => .among negated members :: atomsAfter (m.length - rest.length) m
      | none => .exactly b :: atomsAfter 0 m
    else .exactly b :: atomsAfter 0 m

def atoms (m : Marked) : List Atom := atomsAfter 0 m

def matchesAll : List Atom → Text → Bool
  | [], t => t.isEmpty
  | .many :: ps, t => someEnd (matchesAll ps) t
  | .exactly b :: ps, c :: t => b = c && matchesAll ps t
  | .one :: ps, _ :: t => matchesAll ps t
  | .among negated xs :: ps, c :: t => (xs.any (admits c)) != negated && matchesAll ps t
  | _ :: _, [] => false

/-! ### Cutting -/

/-- The lengths of the starts of a text, longest first or shortest first. -/
def lengths {α : Type} (longest : Bool) (t : List α) : List Nat :=
  let ks := List.range (t.length + 1)
  if longest then ks.reverse else ks

/-- A pattern matches the first of several texts, which `none` divides. -/
def matchesFirst (ps : List Atom) (t : List (Option UInt8)) : Bool :=
  matchesAll ps ((t.takeWhile Option.isSome).filterMap id)

/-- The text without the start that matches; a start that reaches beyond a division matches
    as its part up to there does. -/
def withoutStart (longest : Bool) (ps : List Atom) (t : List (Option UInt8)) : List (Option UInt8) :=
  match (lengths longest t).find? fun k => matchesFirst ps (t.take k) with
  | some k => t.drop k
  | none => t

/-- The text without the end that matches; an end with a division in it matches as its part
    up to there does. -/
def withoutEnd (longest : Bool) (ps : List Atom) (t : List (Option UInt8)) : List (Option UInt8) :=
  match (lengths longest t).find? fun k => matchesFirst ps (t.drop (t.length - k)) with
  | some k => t.take (t.length - k)
  | none => t

def isPattern (m : Marked) : Bool :=
  m.any fun (b, q) => !q && (b = byte '*' || b = byte '?' || b = byte '[')

end Pattern

end Gauntlet.Shell
