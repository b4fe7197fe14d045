import Gauntlet.Text

/-! # The worker pool

  A pool carries out numbered jobs with a bounded number of workers. It is a
  transition system with four kinds of participants:

  - the dispatcher puts job numbers into the work queue, in order, and closes it
    when all are sent or when it sees that the run was cancelled;
  - each worker takes a number, carries out the job, puts the outcome into the
    outcome queue, and leaves when the work queue is closed and empty or when it
    sees that the run was cancelled;
  - the closer seals the outcome queue once all workers have left;
  - the collector takes outcomes until the queue is sealed and empty.

  `step` says what each label does, and in which states it is enabled. `next`
  chooses one enabled label, and `complete` follows it to the end.
-/

namespace Gauntlet.Pool

variable {ρ ω : Type}

/-! ### State -/

/-- The fixed parts of a pool. -/
structure Shape where
  jobs : Nat
  workers : Nat
  deriving Repr

/-- No queue holds more than this. -/
def maxCapacity : Nat := 100

/-- The capacity of each queue. -/
def Shape.capacity (s : Shape) : Nat := min (2 * s.workers) maxCapacity

/-- Queues can be made: twice the number of workers is a signed 64-bit number. -/
def Shape.hasQueues (s : Shape) : Bool := 2 * s.workers < 0x8000000000000000

/-- The state of a pool. -/
structure State (ρ : Type) where
  /-- The number that the dispatcher sends next. -/
  sent : Nat := 0
  /-- The dispatcher has not closed the work queue. -/
  dispatching : Bool := true
  work : List Nat := []
  /-- The number of workers that wait for a job; one is as good as another. -/
  idle : Nat
  /-- The jobs that workers are carrying out. -/
  running : List Nat := []
  /-- The outcomes that workers have in hand. -/
  holding : List (Nat × ρ) := []
  /-- The number of workers that have left. -/
  left : Nat := 0
  outcomes : List (Nat × ρ) := []
  /-- The outcome queue takes no more. -/
  sealed : Bool := false
  /-- The outcomes collected, in order. -/
  collected : List (Nat × ρ) := []
  ended : Bool := false

/-- The state in which a pool begins. -/
def State.initial (s : Shape) : State ρ := { idle := s.workers }

/-! ### Labels and steps -/

/-- The steps of the participants; a busy worker is known by its job. -/
inductive Label where
  | dispatch
  | closeWork
  | take
  | carryOut (job : Nat)
  | hand (job : Nat)
  | leave
  | closeOutcomes
  | collect
  | finish
  deriving DecidableEq, Repr

/-- How jobs are carried out: the outcome and the effect of each job, and whether the
    run has been cancelled. -/
structure Jobs (ρ ω : Type) where
  carryOut : Nat → ω → ρ × ω
  cancelled : ω → Bool

/-- The state after a step, if the step is enabled. -/
def step (shape : Shape) (jobs : Jobs ρ ω) (s : State ρ) (w : ω) : Label → Option (State ρ × ω)
  | .dispatch =>
    if s.dispatching && s.sent < shape.jobs && s.work.length < shape.capacity then
      some ({ s with work := s.work ++ [s.sent], sent := s.sent + 1 }, w)
    else none
  | .closeWork =>
    if s.dispatching && (s.sent = shape.jobs || jobs.cancelled w) then
      some ({ s with dispatching := false }, w)
    else none
  | .take =>
    match s.work with
    | i :: rest =>
      if 0 < s.idle then
        some ({ s with work := rest, idle := s.idle - 1, running := s.running ++ [i] }, w)
      else none
    | [] => none
  | .carryOut i =>
    if s.running.contains i then
      let (r, w') := jobs.carryOut i w
      some ({ s with running := s.running.erase i, holding := s.holding ++ [(i, r)] }, w')
    else none
  | .hand i =>
    match s.holding.find? fun p => p.1 == i with
    | some p =>
      if s.outcomes.length < shape.capacity then
        some ({ s with
          holding := s.holding.eraseP fun p => p.1 == i
          outcomes := s.outcomes ++ [p]
          idle := s.idle + 1 }, w)
      else none
    | none => none
  | .leave =>
    if 0 < s.idle && ((!s.dispatching && s.work.isEmpty) || jobs.cancelled w) then
      some ({ s with idle := s.idle - 1, left := s.left + 1 }, w)
    else none
  | .closeOutcomes =>
    if !s.sealed && s.left = shape.workers then some ({ s with sealed := true }, w) else none
  | .collect =>
    match s.outcomes with
    | p :: rest => some ({ s with outcomes := rest, collected := s.collected ++ [p] }, w)
    | [] => none
  | .finish =>
    if s.sealed && s.outcomes.isEmpty && !s.ended then some ({ s with ended := true }, w) else none

/-! ### Running -/

/-- The labels worth trying, the most urgent first: jobs start as early as possible
    and are carried out in order, and a cancelled run is noticed at once. -/
def candidates (s : State ρ) : List Label :=
  [.closeWork, .dispatch, .leave, .take] ++ (s.holding.take 1).map (fun p => .hand p.1) ++
    s.running.min?.toList.map .carryOut ++ [.collect, .closeOutcomes, .finish]

/-- The state after the first enabled step, if there is one. -/
def next (shape : Shape) (jobs : Jobs ρ ω) (s : State ρ) (w : ω) : Option (State ρ × ω) :=
  (candidates s).findSome? (step shape jobs s w)

/-- The state after at most a number of steps. -/
def follow (shape : Shape) (jobs : Jobs ρ ω) : (steps : Nat) → State ρ → ω → State ρ × ω
  | 0, s, w => (s, w)
  | k + 1, s, w =>
    match next shape jobs s w with
    | none => (s, w)
    | some (s', w') => follow shape jobs k s' w'

/-- A number of steps that suffices: five for each job, one for each worker, three to
    close. -/
def enough (shape : Shape) : Nat := 5 * shape.jobs + shape.workers + 3

/-- What a pool collects until it ends. -/
def complete (shape : Shape) (jobs : Jobs ρ ω) (w : ω) : List (Nat × ρ) × ω :=
  let (s, w) := follow shape jobs (enough shape) (.initial shape) w
  (s.collected, w)

end Gauntlet.Pool
