import Gauntlet.Numeral
import Gauntlet.Text.Quoted

/-! # Integer expressions

  Expressions over 64-bit integers and the names of variables, with the usual
  precedence, choice by `?` and `:`, and assignment. Where the value of an operand
  does not matter, it is read but not worked out.
-/

namespace Gauntlet.Shell.Arithmetic

inductive Token where
  | number (n : Int)
  | name (t : List Char)
  | sign (s : String)
  deriving DecidableEq, Repr

/-- Why an expression has no value. -/
inductive Problem where
  | noPrimary
  | noEnd
  | noParenthesis
  | noColon
  | divisionByZero
  | illegalNumber (t : Text)
  | overflow
  deriving DecidableEq, Repr

def Problem.message (source : Text) : Problem → Text
  | noPrimary => about "expecting primary"
  | noEnd => about "expecting EOF"
  | noParenthesis => about "expecting ')'"
  | noColon => about "expecting ':'"
  | divisionByZero => about "division by zero"
  | illegalNumber t => "Illegal number: " ++ t
  | overflow => about "overflow"
where
  /-- A complaint that quotes the expression. -/
  about (what : Text) : Text := "arithmetic expression: " ++ what ++ ": \"" ++ source ++ "\""

/-! ### Numbers -/

def largest : Int := 0x7fffffffffffffff

def smallest : Int := -0x8000000000000000

def isHexDigit (c : Char) : Bool :=
  c.isDigit || ('a' ≤ c && c ≤ 'f') || ('A' ≤ c && c ≤ 'F')

def isOctalDigit (c : Char) : Bool := '0' ≤ c && c ≤ '7'

def hexadecimal (ds : List Char) : Nat :=
  (ds.map Text.byte).foldl (fun n b => n * 16 + Text.hexValue b) 0

def isBinaryDigit (c : Char) : Bool := c = '0' || c = '1'

/-- The number at the start, with a base given by `0x`, `0b` or `0` in front, and what
    follows it. -/
def numeral (cs : List Char) : Nat × List Char :=
  let decimal := (Nat.ofDigitChars 10 (cs.takeWhile Char.isDigit) 0, cs.dropWhile Char.isDigit)
  match cs with
  | '0' :: rest =>
    let octal := (Nat.ofDigitChars 8 (rest.takeWhile isOctalDigit) 0, rest.dropWhile isOctalDigit)
    match rest with
    | x :: d :: more =>
      if (x = 'x' || x = 'X') && isHexDigit d then
        (hexadecimal ((d :: more).takeWhile isHexDigit), (d :: more).dropWhile isHexDigit)
      else if (x = 'b' || x = 'B') && isBinaryDigit d then
        (Nat.ofDigitChars 2 ((d :: more).takeWhile isBinaryDigit) 0, (d :: more).dropWhile isBinaryDigit)
      else octal
    | _ => octal
  | _ => decimal

/-- The nearest value that fits. -/
def clamped (n : Int) : Int := max smallest (min largest n)

/-- The 64-bit value, wrapping around. -/
def wrapped (n : Int) : Int := (Int64.ofInt n).toInt

def isSpace (c : Char) : Bool := c = ' ' || ('\t' ≤ c && c ≤ '\x0d')

/-- The number that the text of a variable stands for; an empty one counts as zero. -/
def ofText (t : Text) : Except Problem Int :=
  let cs := (t.map fun b => Char.ofNat b.toNat).dropWhile isSpace
  let (negative, body) := match cs with
    | '-' :: rest => (true, rest)
    | '+' :: rest => (false, rest)
    | _ => (false, cs)
  let (n, rest) := numeral body
  let value : Int := if negative then -(n : Int) else n
  if rest.length = body.length then
    if (t.map fun b => Char.ofNat b.toNat).all isSpace then .ok 0 else .error (.illegalNumber t)
  else if rest.all isSpace && clamped value = value then .ok value
  else .error (.illegalNumber t)

/-! ### Tokens -/

/-- The signs of several letters, longer ones first. -/
def longSigns : List String :=
  ["<<=", ">>=", "==", "!=", "<=", ">=", "&&", "||", "<<", ">>", "*=", "/=", "%=", "+=", "-=", "&=",
   "^=", "|="]

def beginsName (c : Char) : Bool := c.isAlpha || c = '_'

def isNameLetter (c : Char) : Bool := c.isAlphanum || c = '_'

def tokens : (fuel : Nat) → List Char → List Token
  | 0, _ => []
  | n + 1, cs =>
    match cs with
    | [] => []
    | c :: rest =>
      if c = ' ' || c = '\t' || c = '\n' then tokens n rest
      else if c.isDigit then
        let (k, rest) := numeral cs
        .number (clamped k) :: tokens n rest
      else if beginsName c then
        .name (cs.takeWhile isNameLetter) :: tokens n (cs.dropWhile isNameLetter)
      else match longSigns.find? fun s => s.toList.isPrefixOf cs with
        | some s => .sign s :: tokens n (cs.drop s.length)
        | none => .sign (String.ofList [c]) :: tokens n rest

/-! ### Operators -/

/-- How tightly an operator binds; nothing for a sign that is none. -/
def strength? : String → Option Nat
  | "|" => some 1
  | "^" => some 2
  | "&" => some 3
  | "==" => some 4
  | "!=" => some 4
  | "<" => some 5
  | "<=" => some 5
  | ">" => some 5
  | ">=" => some 5
  | "<<" => some 6
  | ">>" => some 6
  | "+" => some 7
  | "-" => some 7
  | "*" => some 8
  | "/" => some 8
  | "%" => some 8
  | _ => none

/-- The operator of a sign that assigns; the plain one has none. -/
def assigning? : String → Option (Option String)
  | "=" => some none
  | "<<=" => some (some "<<")
  | ">>=" => some (some ">>")
  | "*=" => some (some "*")
  | "/=" => some (some "/")
  | "%=" => some (some "%")
  | "+=" => some (some "+")
  | "-=" => some (some "-")
  | "&=" => some (some "&")
  | "^=" => some (some "^")
  | "|=" => some (some "|")
  | _ => none

def ofBool (b : Bool) : Int := if b then 1 else 0

/-- A quotient or remainder, which needs a divisor and room for the quotient. -/
def divided (value a b : Int) : Except Problem Int :=
  if b = 0 then .error .divisionByZero
  else if a = smallest ∧ b = -1 then .error .overflow
  else .ok value

def apply (s : String) (a b : Int) : Except Problem Int :=
  match s with
  | "|" => .ok ((Int64.ofInt a ||| Int64.ofInt b).toInt)
  | "^" => .ok ((Int64.ofInt a ^^^ Int64.ofInt b).toInt)
  | "&" => .ok ((Int64.ofInt a &&& Int64.ofInt b).toInt)
  | "==" => .ok (ofBool (a = b))
  | "!=" => .ok (ofBool (a ≠ b))
  | "<" => .ok (ofBool (a < b))
  | "<=" => .ok (ofBool (a ≤ b))
  | ">" => .ok (ofBool (b < a))
  | ">=" => .ok (ofBool (b ≤ a))
  | "<<" => .ok ((Int64.ofInt a <<< Int64.ofInt b).toInt)
  | ">>" => .ok ((Int64.ofInt a >>> Int64.ofInt b).toInt)
  | "+" => .ok (wrapped (a + b))
  | "-" => .ok (wrapped (a - b))
  | "*" => .ok (wrapped (a * b))
  | "/" => divided (a.tdiv b) a b
  | "%" => divided (a.tmod b) a b
  | _ => .error .noEnd

/-! ### Values -/

/-- What the names of variables stand for. -/
abbrev Lookup := List Char → Except Problem Int

/-- The tokens left and the assignments made, last first. -/
structure State where
  rest : List Token
  made : List (List Char × Int) := []

abbrev Work := StateT State (Except Problem)

def valueOf (look : Lookup) (x : List Char) : Work Int := do
  match (← get).made.lookup x with
  | some v => return v
  | none => look x

def take : Work (Option Token) := do
  let s ← get
  set { s with rest := s.rest.tail }
  return s.rest.head?

def sees (sign : String) : Work Bool := do return (← get).rest.head? = some (.sign sign)

mutual

/-- A number, a name, a sign in front of one, or an expression in parentheses. -/
def operand (look : Lookup) : (fuel : Nat) → (idle : Bool) → Work Int
  | 0, _ => throw .noPrimary
  | n + 1, idle => do
    match ← take with
    | some (.number k) => return k
    | some (.name x) => if idle then return 0 else valueOf look x
    | some (.sign "-") => return wrapped (-(← operand look n idle))
    | some (.sign "+") => operand look n idle
    | some (.sign "!") => return ofBool ((← operand look n idle) = 0)
    | some (.sign "~") => return -(← operand look n idle) - 1
    | some (.sign "(") =>
      let k ← assignment look n idle
      if ← sees ")" then
        let _ ← take
        return k
      else throw .noParenthesis
    | _ => throw .noPrimary

/-- The operators that follow a value and bind more tightly than `least`. -/
def continued (look : Lookup) : (fuel : Nat) → (least : Nat) → (idle : Bool) → Int → Work Int
  | 0, _, _, _ => throw .noPrimary
  | n + 1, least, idle, k => do
    match (← get).rest with
    | .sign s :: _ =>
      match strength? s with
      | some p =>
        if p ≤ least then return k
        else
          let _ ← take
          let m ← continued look n p idle (← operand look n idle)
          let v ← if idle then pure m else apply s k m
          continued look n least idle v
      | none => return k
    | _ => return k

def conjunction (look : Lookup) : (fuel : Nat) → (idle : Bool) → Work Int
  | 0, _ => throw .noPrimary
  | n + 1, idle => do
    let a ← continued look n 0 idle (← operand look n idle)
    if ← sees "&&" then
      let _ ← take
      let b ← conjunction look n (idle || a = 0)
      return ofBool (a ≠ 0 && b ≠ 0)
    else return a

def disjunction (look : Lookup) : (fuel : Nat) → (idle : Bool) → Work Int
  | 0, _ => throw .noPrimary
  | n + 1, idle => do
    let a ← conjunction look n idle
    if ← sees "||" then
      let _ ← take
      let b ← disjunction look n (idle || a ≠ 0)
      return ofBool (a ≠ 0 || b ≠ 0)
    else return a

def choice (look : Lookup) : (fuel : Nat) → (idle : Bool) → Work Int
  | 0, _ => throw .noPrimary
  | n + 1, idle => do
    let a ← disjunction look n idle
    if ← sees "?" then
      let _ ← take
      let b ← assignment look n (idle || a = 0)
      if ← sees ":" then
        let _ ← take
        let c ← choice look n (idle || a ≠ 0)
        return if a ≠ 0 then b else c
      else throw .noColon
    else return a

/-- A value that may be given to a name. -/
def assignment (look : Lookup) : (fuel : Nat) → (idle : Bool) → Work Int
  | 0, _ => throw .noPrimary
  | n + 1, idle => do
    match (← get).rest with
    | .name x :: .sign s :: rest =>
      match assigning? s with
      | some operator =>
        modify fun t => { t with rest }
        let k ← assignment look n idle
        if idle then return k
        else
          let v ← match operator with
            | some o => apply o (← valueOf look x) k
            | none => pure k
          modify fun t => { t with made := (x, v) :: t.made }
          return v
      | none => choice look n idle
    | _ => choice look n idle

end

/-- The value of an expression, and the assignments it makes in their order. -/
def eval (look : Lookup) (cs : List Char) : Except Problem (Int × List (List Char × Int)) :=
  let ts := tokens (cs.length + 1) cs
  match (assignment look (8 * ts.length + 8) false).run { rest := ts } with
  | .ok (k, s) => if s.rest.isEmpty then .ok (k, s.made.reverse) else .error .noEnd
  | .error e => .error e

end Gauntlet.Shell.Arithmetic
