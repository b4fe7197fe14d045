import Gauntlet.Shell.Process

/-! # Tasks

  A shell numbers the tasks that it has begun without waiting for them. A number is used
  again once the end of its task has been waited for. Scripts speak of a task by its number
  or by its place: the current one is the one begun last.
-/

namespace Gauntlet.Shell

open Text

namespace Task

/-- How a task ended, once all its processes have. -/
def exit? (exits : List (Nat × Exit)) (t : Task) : Option Exit :=
  if t.pids.all fun p => (exits.lookup p).isSome then t.pids.getLast?.bind fun p => exits.lookup p
  else none

/-- The number of a task can be used again. -/
def isSpent (exits : List (Nat × Exit)) (t : Task) : Bool := t.awaited && (t.exit? exits).isSome

/-- What has become of a task. -/
def state (exits : List (Nat × Exit)) (t : Task) : Text :=
  match t.exit? exits with
  | none => "Running"
  | some ⟨_, some k⟩ => Signal.meaning k
  | some ⟨0, none⟩ => "Done"
  | some ⟨n, none⟩ => "Done(" ++ Numeral.ofNat n ++ ")"

end Task

namespace Tasks

/-- The least number that a new task can have. -/
def vacancy (exits : List (Nat × Exit)) (tasks : List Task) : Nat :=
  let taken := (tasks.filter fun t => !t.isSpent exits).map Task.number
  ((List.range (taken.length + 1)).find? fun k => !taken.contains (k + 1)).getD 0 + 1

/-- The tasks without the one whose number is given to something new. -/
def cleared (exits : List (Nat × Exit)) (tasks : List Task) : List Task :=
  tasks.filter fun t => t.number ≠ vacancy exits tasks

def beginning (exits : List (Nat × Exit)) (pids : List Nat) (tasks : List Task) : List Task :=
  { number := vacancy exits tasks, pids } :: cleared exits tasks

/-! ### Listing -/

/-- How a task is listed. -/
inductive Form where
  | plain
  /-- With the numbers of its processes. -/
  | full
  /-- Only the number of its first process. -/
  | numberOnly
  deriving DecidableEq, Repr

/-- The place of a task, as it is marked: the current one, the one before it, or neither. -/
def placeMark (tasks : List Task) (t : Task) : Text :=
  match tasks with
  | a :: rest =>
    if a.number = t.number then "+"
    else match rest with
      | b :: _ => if b.number = t.number then "-" else " "
      | [] => " "
  | [] => " "

/-- How wide the part before a command is. -/
def width : Nat := 33

/-- A text filled with spaces up to a width; at least one follows it. -/
def filled (used : Nat) (t : Text) : Text := t ++ spaces (max 1 (width - used))

def shown (form : Form) (exits : List (Nat × Exit)) (tasks : List Task) (t : Task) : Text :=
  let front : Text := "[" ++ Numeral.ofNat t.number ++ "] " ++ placeMark tasks t ++ " "
  let first (extra : Text) : Text :=
    let u := front ++ extra ++ t.state exits
    filled u.length u
  match form, t.pids with
  | .numberOnly, p :: _ => Numeral.ofNat p ++ "\n"
  | .full, p :: ps =>
    let more := ps.map fun p =>
      let u : Text := spaces front.length ++ Numeral.ofNat p ++ " "
      " |\n" ++ filled u.length u
    first (Numeral.ofNat p ++ " ") ++ more.flatten ++ "\n"
  | _, ps => first [] ++ (ps.drop 1).flatMap (fun _ => (" | " : Text)) ++ "\n"

/-- Lists tasks one after the other; one that has ended is forgotten when it has been
    listed. -/
def list (form : Form) (exits : List (Nat × Exit)) : List Task → List Task → Text × List Task
  | tasks, [] => ([], tasks)
  | tasks, t :: ts =>
    let line := shown form exits tasks t
    let forgotten := form ≠ .numberOnly && (t.exit? exits).isSome
    let rest := if forgotten then tasks.filter (·.number ≠ t.number) else tasks
    let (more, left) := list form exits rest ts
    (line ++ more, left)

/-! ### Finding -/

/-- The task that a word names; without a word, the current one. -/
def find (tasks : List Task) (word : Option Text) : Except Text Task :=
  let placed (t : Option Task) (why : Text) : Except Text Task :=
    match t with
    | some t => .ok t
    | none => .error why
  let current := placed tasks.head? "No current job"
  match word with
  | none => current
  | some w =>
    let missing : Except Text Task := .error ("No such job: " ++ w)
    match w with
    | [] => missing
    | b :: name =>
      if b ≠ byte '%' then missing
      else if name.isEmpty || name = "+" || name = "%" then current
      else if name = "-" then placed tasks[1]? "No previous job"
      else if name = "?" then
        -- The commands of tasks have no text, which the empty text is a part of.
        match tasks with
        | [] => missing
        | [t] => .ok t
        | _ => .error (w ++ ": ambiguous")
      else if name.all isDigit then
        let n := Numeral.value name
        match tasks.find? fun t => t.number = n with
        | some t => .ok t
        | none => missing
      else missing

end Tasks

end Gauntlet.Shell
