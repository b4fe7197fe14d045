import Gauntlet.Disk.Directory
import Gauntlet.Numeral
import Gauntlet.Shell.Streams

/-! # Conditions

  The conditions of scripts are lists of words: tests of texts, numbers and files,
  joined by `!`, `-a`, `-o` and parentheses. A word that looks like an operator is an
  operand where no operator can stand, and with three or four words the number of
  words decides how they are read.

  What conditions speak about is a `Scene`: the disk, and the streams that a process has
  open, which have paths of their own.
-/

namespace Gauntlet.Shell.Condition

open Text

/-- What a word can be. -/
inductive Operator where
  | unary
  | binary
  | conjunction
  | disjunction
  | negation
  | opening
  | closing
  deriving DecidableEq, Repr

def unaryWords : List Text :=
  ["-r", "-w", "-x", "-e", "-f", "-d", "-c", "-b", "-p", "-u", "-g", "-k", "-s", "-t", "-z",
   "-n", "-h", "-O", "-G", "-L", "-S"]

def binaryWords : List Text :=
  ["=", "!=", "<", ">", "-eq", "-ne", "-ge", "-gt", "-le", "-lt", "-nt", "-ot", "-ef"]

def operator? (w : Text) : Option Operator :=
  if unaryWords.contains w then some .unary
  else if binaryWords.contains w then some .binary
  else if w = "-a" then some .conjunction
  else if w = "-o" then some .disjunction
  else if w = "!" then some .negation
  else if w = "(" then some .opening
  else if w = ")" then some .closing
  else none

/-- What stands at the start of a list of words. -/
inductive Token where
  | nothing
  | operand
  | operator (o : Operator)
  deriving DecidableEq, Repr

/-- The word after a unary operator shows that it is an operand itself. -/
def isOperand : List Text → Bool
  | [] => true
  | [_] => false
  | w :: _ :: _ => operator? w = some .binary

def token : List Text → Token
  | [] => .nothing
  | w :: ws =>
    match operator? w with
    | some .unary => if isOperand ws then .operand else .operator .unary
    | some .opening => if ws.isEmpty then .operand else .operator .opening
    | some o => .operator o
    | none => .operand

/-! ### Operands -/

def isSpace (b : UInt8) : Bool := b = 32 || (9 ≤ b && b ≤ 13)

/-- The number that a word stands for: digits, perhaps with a sign, between bytes that are
    passed over. -/
def signed? (before after : UInt8 → Bool) (w : Text) : Option Int :=
  let body := ((w.dropWhile before).reverse.dropWhile after).reverse
  let (sign, ds) : Int × Text := match body with
    | b :: rest =>
      if b = byte '-' then (-1, rest) else if b = byte '+' then (1, rest) else (1, body)
    | [] => (1, [])
  if ds.isEmpty || !ds.all isDigit then none else some (sign * Numeral.value ds)

/-- A number that must fit in 64 bits; white space may stand around it. -/
def number (w : Text) : Except Text Int :=
  match signed? isSpace isSpace w with
  | some n =>
    if n < -0x8000000000000000 || 0x8000000000000000 ≤ n then .error ("Illegal number: " ++ w)
    else .ok n
  | none => .error ("Illegal number: " ++ w)

def comparison? (o : Text) : Option (Int → Int → Bool) :=
  if o = "-eq" then some fun x y => x = y
  else if o = "-ne" then some fun x y => x ≠ y
  else if o = "-lt" then some fun x y => x < y
  else if o = "-le" then some fun x y => x ≤ y
  else if o = "-gt" then some fun x y => y < x
  else if o = "-ge" then some fun x y => y ≤ x
  else none

/-- What conditions speak about. -/
structure Scene where
  disk : Disk
  /-- What the open streams lead to. -/
  stream : Nat → Option StreamKind := fun _ => none

namespace Scene

/-- What a path leads to, and where that stands on the disk. -/
def look (s : Scene) (p : Text) : Option (StreamKind × Node) :=
  let standing (l : Location) (n : Node) : StreamKind × Node :=
    (if n.isDevice then .device else .file l, n)
  match streamOfPath? p with
  | some k =>
    match s.stream k with
    | some (.file l) => (s.disk.node? l).map (standing l)
    | some k => some (k, .file [] 0o666 s.disk.now)
    | none => none
  | none => (s.disk.stat p).toOption.map fun (l, n) => standing l n

/-- Something can be done with what a path leads to. -/
def permits (s : Scene) (p : Text) (may : Node → Bool) : Bool := (s.look p).any fun (_, n) => may n

end Scene

def unary (s : Scene) (o a : Text) : Except Text Bool :=
  let found (f : StreamKind → Node → Bool) : Except Text Bool := .ok ((s.look a).any fun (k, n) => f k n)
  let standing (f : Node → Bool) : Except Text Bool := found fun k n => k.isFile && f n
  let bit (m : Nat) : Except Text Bool := standing fun n => n.mode / m % 2 = 1
  if o = "-n" then .ok (!a.isEmpty)
  else if o = "-z" then .ok a.isEmpty
  else if o = "-e" || o = "-O" || o = "-G" then found fun _ _ => true
  else if o = "-f" then standing Node.isFile
  else if o = "-d" then standing Node.isDir
  else if o = "-r" then .ok (s.permits a Node.readable)
  else if o = "-w" then .ok (s.permits a Node.writable)
  else if o = "-x" then .ok (s.permits a Node.executable)
  else if o = "-c" then found fun k _ => k = .device
  else if o = "-p" then found fun k _ => k = .pipe
  else if o = "-u" then bit 0o4000
  else if o = "-g" then bit 0o2000
  else if o = "-k" then bit 0o1000
  else if o = "-s" then
    standing fun
      | .file data _ _ => !data.isEmpty
      | n => n.isDir
  else if o = "-L" || o = "-h" then
    match streamOfPath? a, s.disk.lstat a with
    | none, .ok (_, .link _) => .ok true
    | some _, _ => .ok true
    | _, _ => .ok false
  else if o = "-t" then (number a).map fun _ => false
  else .ok false

def binary (s : Scene) (o a b : Text) : Except Text Bool := do
  let both (r : StreamKind × Node → StreamKind × Node → Bool) : Except Text Bool :=
    match s.look a, s.look b with
    | some x, some y => .ok (r x y)
    | _, _ => .ok false
  if let some r := comparison? o then return r (← number a) (← number b)
  else if o = "=" then .ok (a = b)
  else if o = "!=" then .ok (a ≠ b)
  else if o = "<" then .ok (Text.le a b && a ≠ b)
  else if o = ">" then .ok (Text.le b a && a ≠ b)
  else if o = "-nt" then both fun x y => y.2.modified.before x.2.modified
  else if o = "-ot" then both fun x y => x.2.modified.before y.2.modified
  else both fun x y => x.1 = y.1

/-! ### Structure -/

mutual

/-- A disjunction; gives its value and the words from its last one on. -/
def disjunction (s : Scene) : (fuel : Nat) → Token → List Text → Except Text (Bool × List Text)
  | 0, _, ws => .ok (false, ws)
  | n + 1, t, ws =>
    match conjunction s n t ws with
    | .error e => .error e
    | .ok (a, ws) =>
      if token (ws.drop 1) ≠ .operator .disjunction then .ok (a, ws)
      else (disjunction s n (token (ws.drop 2)) (ws.drop 2)).map fun (b, ws) => (a || b, ws)

def conjunction (s : Scene) : (fuel : Nat) → Token → List Text → Except Text (Bool × List Text)
  | 0, _, ws => .ok (false, ws)
  | n + 1, t, ws =>
    match negation s n t ws with
    | .error e => .error e
    | .ok (a, ws) =>
      if token (ws.drop 1) ≠ .operator .conjunction then .ok (a, ws)
      else (conjunction s n (token (ws.drop 2)) (ws.drop 2)).map fun (b, ws) => (a && b, ws)

/-- A test with any number of negations in front. -/
def negation (s : Scene) : (fuel : Nat) → Token → List Text → Except Text (Bool × List Text)
  | 0, _, ws => .ok (false, ws)
  | n + 1, t, ws =>
    if t ≠ .operator .negation then single s n t ws
    else
      let next := token (ws.drop 1)
      (negation s n next (if next = .nothing then ws else ws.drop 1)).map fun (a, ws) => (!a, ws)

/-- A test, or a condition in parentheses. -/
def single (s : Scene) : (fuel : Nat) → Token → List Text → Except Text (Bool × List Text)
  | 0, _, ws => .ok (false, ws)
  | n + 1, t, ws =>
    match t, ws with
    | .nothing, _ => .ok (false, ws)
    | .operator .opening, _ =>
      let inner := ws.drop 1
      if token inner = .operator .closing then .ok (false, inner)
      else match disjunction s n (token inner) inner with
        | .error e => .error e
        | .ok (a, ws) =>
          let rest := ws.drop 1
          if token rest = .operator .closing then .ok (a, rest)
          else .error "closing paren expected"
    | .operator .unary, o :: rest =>
      match rest with
      | [] => .error (o ++ ": argument expected")
      | a :: _ => (unary s o a).map fun r => (r, rest)
    | _, a :: rest =>
      if token rest ≠ .operator .binary then .ok (!a.isEmpty, ws)
      else match rest with
        | o :: b :: more => (binary s o a b).map fun r => (r, b :: more)
        | o :: [] => .error (o ++ ": argument expected")
        | [] => .ok (!a.isEmpty, ws)
    | _, [] => .ok (false, ws)

end

/-- The value of a whole list of words, which begins with the given token. -/
def whole (s : Scene) (t : Token) (ws : List Text) : Except Text Bool :=
  match disjunction s (4 * ws.length + 8) t ws with
  | .error e => .error e
  | .ok (_, w :: _ :: _) =>
    .error (if w.isEmpty then "unexpected operator" else w ++ ": unexpected operator")
  | .ok (a, _) => .ok a

def value (s : Scene) : List Text → Except Text Bool
  | [] => .ok false
  | [a, o, b] =>
    if operator? o = some .binary then whole s .operand [a, o, b]
    else if a = "(" && b = ")" then whole s (token [o]) [o]
    else if a = "!" then (value s [o, b]).map (!·)
    else whole s (token [a, o, b]) [a, o, b]
  | [a, b, c, e] =>
    if a = "(" && e = ")" then whole s (token [b, c]) [b, c]
    else if a = "!" then (value s [b, c, e]).map (!·)
    else whole s (token [a, b, c, e]) [a, b, c, e]
  | ws => whole s (token ws) ws

end Gauntlet.Shell.Condition
