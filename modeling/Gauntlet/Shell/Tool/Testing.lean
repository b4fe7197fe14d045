import Gauntlet.Shell.Condition
import Gauntlet.Shell.Tool

/-! # Testing

  The tool that tests conditions. It reads them much as the command of the shell of the same
  name does, but the number of words decides more, numbers have no bounds, and complaints
  are worded in its own way.
-/

namespace Gauntlet.Shell.Tools.Testing

open Text

/-- What is wrong with a condition. -/
inductive Problem where
  | missingAfter (last : Text)
  | extra (w : Text)
  | noUnary (w : Text)
  | noBinary (w : Text)
  | noInteger (w : Text)
  | unclosed (found : Option Text)

def Problem.message : Problem → Text
  | missingAfter last => "missing argument after " ++ quoted last
  | extra w => "extra argument " ++ quoted w
  | noUnary w => quoted w ++ ": unary operator expected"
  | noBinary w => quoted w ++ ": binary operator expected"
  | noInteger w => "invalid integer " ++ quoted w
  | unclosed none => "')' expected"
  | unclosed (some w) => "')' expected, found " ++ quoted w

/-- What conditions are read from. -/
structure Context where
  scene : Condition.Scene
  /-- The last word of the condition. -/
  last : Text

def unaryWords : List Text :=
  ["-e", "-r", "-w", "-x", "-N", "-O", "-G", "-f", "-d", "-s", "-S", "-c", "-b", "-p", "-L", "-h",
   "-u", "-g", "-k", "-n", "-z", "-t"]

def binaryWords : List Text :=
  ["=", "==", "!=", "-nt", "-ot", "-ef", "-eq", "-ne", "-lt", "-le", "-gt", "-ge"]

/-- A word that looks like a test of one operand. -/
def isSwitch : Text → Bool
  | [a, _] => a = byte '-'
  | _ => false

def integer (w : Text) : Except Problem Int :=
  match Condition.signed? Condition.isSpace (fun b => b = 32 || b = 9) w with
  | some n => .ok n
  | none => .error (.noInteger w)

/-- A value and the words that are left. -/
abbrev Outcome := Except Problem (Bool × List Text)

namespace Context

/-- The words end too early. -/
def beyond {α : Type} (c : Context) : Except Problem α := .error (.missingAfter c.last)

def unary (c : Context) : List Text → Outcome
  | [] => c.beyond
  | o :: rest =>
    if !unaryWords.contains o then .error (.noUnary o)
    else match rest with
      | [] => c.beyond
      | a :: rest =>
        if o = "-t" then (integer a).map fun _ => (false, rest)
        else .ok ((Condition.unary c.scene o a).toOption.getD false, rest)

def binary (c : Context) (a o b : Text) : Except Problem Bool := do
  let newer (a b : Text) : Bool :=
    match c.scene.look a, c.scene.look b with
    | some x, some y => y.2.modified.before x.2.modified
    | some _, none => true
    | none, _ => false
  if let some r := Condition.comparison? o then return r (← integer a) (← integer b)
  else if o = "=" || o = "==" then .ok (a = b)
  else if o = "!=" then .ok (a ≠ b)
  else if o = "-nt" then .ok (newer a b)
  else if o = "-ot" then .ok (newer b a)
  else .ok ((Condition.binary c.scene o a b).toOption.getD false)

/-- A test of two operands at the start of the words. -/
def dyadic? (c : Context) : List Text → Option Outcome
  | a :: o :: b :: rest =>
    let length? : Option Outcome := match rest with
      | d :: rest =>
        if a = "-l" && binaryWords.contains b then
          some ((c.binary (Numeral.ofNat o.length) b d).map (·, rest))
        else none
      | [] => none
    length?.or (if binaryWords.contains o then some ((c.binary a o b).map (·, rest)) else none)
  | _ => none

def one (c : Context) : List Text → Outcome
  | [] => c.beyond
  | a :: rest => .ok (!a.isEmpty, rest)

def two (c : Context) (ws : List Text) : Outcome :=
  match ws with
  | a :: rest =>
    if a = "!" then (c.one rest).map fun (v, ws) => (!v, ws)
    else if isSwitch a then c.unary ws
    else c.beyond
  | [] => c.beyond

mutual

/-- A test of a number of words. -/
def counted (c : Context) : (fuel : Nat) → (count : Nat) → List Text → Outcome
  | 0, _, _ => c.beyond
  | n + 1, count, ws =>
    match count, ws with
    | 1, _ => c.one ws
    | 2, _ => c.two ws
    | 3, _ => three c n ws
    | 4, a :: rest =>
      if a = "!" then (three c n rest).map fun (v, ws) => (!v, ws)
      else if a = "(" && ws[3]? = some (")" : Text) then (c.two rest).map fun (v, ws) => (v, ws.drop 1)
      else either c n ws
    | _, _ => either c n ws

def three (c : Context) : (fuel : Nat) → List Text → Outcome
  | 0, _ => c.beyond
  | n + 1, ws =>
    match ws with
    | a :: o :: b :: rest =>
      if binaryWords.contains o then (c.binary a o b).map (·, rest)
      else if a = "!" then (c.two (o :: b :: rest)).map fun (v, ws) => (!v, ws)
      else if a = "(" && b = ")" then .ok (!o.isEmpty, rest)
      else if o = "-a" || o = "-o" then either c n ws
      else .error (.noBinary o)
    | _ => c.beyond

def either (c : Context) : (fuel : Nat) → List Text → Outcome
  | 0, _ => c.beyond
  | n + 1, ws => do
    let (v, ws) ← both c n ws
    match ws with
    | o :: rest =>
      if o = "-o" then
        let (w, ws) ← either c n rest
        return (v || w, ws)
      else return (v, ws)
    | [] => return (v, [])

def both (c : Context) : (fuel : Nat) → List Text → Outcome
  | 0, _ => c.beyond
  | n + 1, ws => do
    let (v, ws) ← term c n ws
    match ws with
    | o :: rest =>
      if o = "-a" then
        let (w, ws) ← both c n rest
        return (v && w, ws)
      else return (v, ws)
    | [] => return (v, [])

/-- A test, a condition in parentheses, or either of them negated. -/
def term (c : Context) : (fuel : Nat) → List Text → Outcome
  | 0, _ => c.beyond
  | n + 1, ws =>
    match ws with
    | [] => c.beyond
    | a :: rest =>
      if a = "!" then (term c n rest).map fun (v, ws) => (!v, ws)
      else if a = "(" then
        if rest.isEmpty then c.beyond
        else
          let inner := (rest.drop 1).takeWhile (· ≠ (")" : Text))
          let count := if inner.length < 4 then inner.length + 1 else rest.length
          match counted c n count rest with
          | .error e => .error e
          | .ok (v, w :: ws) => if w = ")" then .ok (v, ws) else .error (.unclosed (some w))
          | .ok (_, []) => .error (.unclosed none)
      else match c.dyadic? ws with
        | some r => r
        | none => if isSwitch a then c.unary ws else .ok (!a.isEmpty, rest)

end

end Context

def value (s : Condition.Scene) (ws : List Text) : Except Problem Bool :=
  match ws.getLast? with
  | none => .ok false
  | some last =>
    match Context.counted { scene := s, last } (8 * ws.length + 8) ws.length ws with
    | .error e => .error e
    | .ok (v, []) => .ok v
    | .ok (_, w :: _) => .error (.extra w)

def run (s : Condition.Scene) (args : List Text) : ToolResult :=
  match value s args with
  | .ok true => { disk := s.disk }
  | .ok false => { disk := s.disk, status := 1 }
  | .error e => { disk := s.disk, status := 2, said := [.complaint e.message] }

/-- As `run`, of words that a bracket has to follow. -/
def runBracketed (s : Condition.Scene) (args : List Text) : ToolResult :=
  if args.getLast? = some "]" then run s args.dropLast
  else { disk := s.disk, status := 2, said := [.complaint "missing ']'"] }

end Gauntlet.Shell.Tools.Testing
