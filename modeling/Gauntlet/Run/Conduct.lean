import Gauntlet.Command
import Gauntlet.Pool
import Gauntlet.Run.Collector

/-! # Conducting runs

  A run takes every selected case through an executor, one after the other or by a
  pool of workers, and collects the results. A run is complete or it fails: once it
  is cancelled there is no result.
-/

namespace Gauntlet.Run

/-- How cases are carried out in a world `ω`; there may be no result. -/
structure Executor (ω : Type) where
  carryOut : (run : Text) → Case → ω → Option CaseResult × ω
  cancelled : ω → Bool

/-- Why a run has no result. -/
inductive Fault where
  | interrupted
  /-- A pool was interrupted after `done` of `total` cases; the run is known to be
      cancelled, or not. -/
  | interruptedAfter (done total : Nat) (cancelled : Bool)
  /-- A result could not be recorded. -/
  | refused (r : Refusal)
  deriving DecidableEq, Repr

/-- The failure of a run without result. -/
def Fault.failure : Fault → Failure
  | interrupted => .wrap "test run interrupted" (some cancellation)
  | interruptedAfter done total cancelled =>
    .wrap ("test run interrupted after " ++ Numeral.ofNat done ++ " of " ++ Numeral.ofNat total ++
      " tests") (if cancelled then some cancellation else none)
  | refused r => .plain r.message

/-! ### Concurrency -/

/-- The number of cases to be carried out at once: zero stands for one. -/
def workers (concurrency : Int) : Except Failure Nat :=
  if concurrency < 0 then
    .error (.plain ("concurrency cannot be negative: " ++ Numeral.ofInt concurrency))
  else .ok (if concurrency = 0 then 1 else concurrency.toNat)

/-- The refusal of a run without executor. -/
def noExecutor : Failure := .plain "executor is required"

/-- Why a pool cannot be made, if it cannot. -/
def poolDefect? (hasExecutor : Bool) (concurrency : Int) : Option Text :=
  if !hasExecutor then some "executor cannot be nil"
  else if concurrency < 1 then some "concurrency must be at least 1"
  else if !(Pool.Shape.mk 0 concurrency.toNat).hasQueues then some Refusal.noQueue.message
  else none

/-! ### Serial runs -/

variable {ω : Type}

/-- Carries out cases one after the other, the first of them with a given index. -/
def serial (e : Executor ω) (id : Text) : (index : Nat) → List Case → Run → ω →
    Except Fault Run × ω
  | _, [], r, w => (.ok r, w)
  | i, c :: cs, r, w =>
    if e.cancelled w then (.error .interrupted, w)
    else
      let (result, w) := e.carryOut id c w
      match record (some r) i result with
      | .error refusal => (.error (.refused refusal), w)
      | .ok r => serial e id (i + 1) cs r w

/-! ### Parallel runs -/

def jobsOf (e : Executor ω) (id : Text) (cases : List Case) : Pool.Jobs (Option CaseResult) ω where
  carryOut i w := match cases[i]? with
    | some c => e.carryOut id c w
    | none => (none, w)
  cancelled := e.cancelled

/-- Hands the cases to a pool; gives the collected results with their indices. -/
def pooled (e : Executor ω) (id : Text) (workers : Nat) (cases : List Case) (w : ω) :
    List (Nat × Option CaseResult) × ω :=
  Pool.complete ⟨cases.length, workers⟩ (jobsOf e id cases) w

/-- Why a pool that collected a number of results failed, if it did; `cancelled` tells
    whether the run is cancelled at its end. -/
def shortfall? (collected total : Nat) (cancelled : Bool := true) : Option Fault :=
  if collected = total then none else some (.interruptedAfter collected total cancelled)

/-- Records collected results in the order in which they came. -/
def recordAll : List (Nat × Option CaseResult) → Run → Except Fault Run
  | [], r => .ok r
  | (i, result) :: rest, r =>
    match record (some r) i result with
    | .error refusal => .error (.refused refusal)
    | .ok r => recordAll rest r

/-- The run after a pool has ended in a world: what was collected is recorded, and
    nothing may be missing. -/
def settled (e : Executor ω) (total : Nat) (r : Run)
    (collected : List (Nat × Option CaseResult)) (w : ω) : Except Fault Run :=
  match recordAll collected r with
  | .error f => .error f
  | .ok r =>
    match shortfall? collected.length total (e.cancelled w) with
    | some f => .error f
    | none => .ok r

def byPool (e : Executor ω) (id : Text) (workers : Nat) (cases : List Case) (r : Run) (w : ω) :
    Except Fault Run × ω :=
  if !(Pool.Shape.mk cases.length workers).hasQueues then (.error (.refused .noQueue), w)
  else
    let (collected, w) := pooled e id workers cases w
    (settled e cases.length r collected w, w)

/-! ### All cases -/

/-- The cases are carried out by a pool. -/
def inParallel (workers : Nat) (cases : List Case) : Bool :=
  decide (1 < workers) && decide (1 < cases.length)

/-- The end of a run in a world: it is closed, unless it was cancelled meanwhile. -/
def concluded (e : Executor ω) (result : Except Fault Run) (w : ω) : Except Fault Run :=
  match result with
  | .error f => .error f
  | .ok r => if e.cancelled w then .error .interrupted else .ok (r.close r.duration)

/-- Carries out all cases and closes the run. -/
def conduct (e : Executor ω) (workers : Nat) (id : Text) (start : ZonedInstant)
    (cases : List Case) (w : ω) : Except Fault Run × ω :=
  let r := Run.empty id cases.length (inParallel workers cases) start
  let (result, w) :=
    if inParallel workers cases then byPool e id workers cases r w else serial e id 0 cases r w
  (concluded e result w, w)

end Gauntlet.Run
