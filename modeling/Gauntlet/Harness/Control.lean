import Gauntlet.Service

/-! # Control of a long-running harness

  Started without an end, a harness makes its first pass and then leaves the rest to a
  watcher, which makes a pass after each interval. Control is a transition system over
  what the two share:

  - the flag that says that the harness runs;
  - the done signal, which is renewed by every start;
  - the service, which is shut down at most once in the life of the harness;
  - the cancellation of the surrounding work.

  The caller starts and stops the harness, one call at a time. The watcher waits for
  the interval, the done signal or the cancellation, whichever it sees first. `step`
  says what each label does, and in which states it is enabled.
-/

namespace Gauntlet.Control

/-- What the watcher is doing. -/
inductive Watcher where
  /-- There is none, or it has left. -/
  | gone
  /-- It waits for the interval, the done signal or the cancellation. -/
  | waiting
  /-- The interval is over; the flag is looked at next. -/
  | fired
  /-- It makes a pass. -/
  | passing
  /-- It has seen the cancellation; the flag is cleared next. -/
  | leaving
  deriving DecidableEq, Repr, Inhabited

/-- Where the caller is in a call. -/
inductive Caller where
  /-- In no call. -/
  | idle
  /-- Starting: the first pass is being made. -/
  | starting
  /-- Stopping: the flag is cleared next. -/
  | clearing
  /-- Stopping: the done signal is given next. -/
  | signalling
  /-- Stopping: the watcher is awaited. -/
  | joining
  /-- Stopping: the service is shut down next. -/
  | shutting
  deriving DecidableEq, Repr, Inhabited

/-- The state that is shared. -/
structure State where
  running : Bool := false
  /-- The done signal of the last start has been given. -/
  done : Bool := false
  /-- How often a done signal was given that had been given already. -/
  overruns : Nat := 0
  service : Service := {}
  /-- The one shutdown of the service has been made. -/
  retired : Bool := false
  cancelled : Bool := false
  watcher : Watcher := .gone
  caller : Caller := .idle
  deriving DecidableEq, Repr, Inhabited

/-- The steps. -/
inductive Label where
  /-- A start whose service came up, or that has none. -/
  | start (service : Service)
  /-- A start whose service did not come up. -/
  | failedStart (service : Service)
  /-- The first pass ends, the watcher begins and the start returns. -/
  | started
  | cancel
  /-- The interval of the watcher ends. -/
  | tick
  /-- The watcher looks at the flag. -/
  | look
  /-- The pass of the watcher ends. -/
  | passed
  | seeDone
  | seeCancel
  /-- The watcher clears the flag and leaves. -/
  | leave
  /-- A stop looks at the flag; it returns if the harness does not run. -/
  | stop
  | clear
  | signal
  | join
  /-- The stop shuts the service down and returns. -/
  | shut
  deriving DecidableEq, Repr

namespace State

/-- The service after the shutdown that is made only once. -/
def retire (wanted : Bool) (s : State) : State :=
  if !wanted || s.retired then s else { s with service := s.service.shutdown, retired := true }

/-- What a label does; nothing if it is not enabled. `wanted` tells whether the harness
    has a service. -/
def step (wanted : Bool) (s : State) : Label → Option State
  | .start service =>
    if s.caller = .idle then
      some { s with running := true, done := false, service, caller := .starting }
    else none
  | .failedStart service =>
    if s.caller = .idle then some { s with running := false, done := false, service } else none
  | .started =>
    if s.caller = .starting then some { s with watcher := .waiting, caller := .idle } else none
  | .cancel => some { s with cancelled := true }
  | .tick => if s.watcher = .waiting then some { s with watcher := .fired } else none
  | .look =>
    if s.watcher = .fired then
      some { s with watcher := if s.running then .passing else .gone }
    else none
  | .passed => if s.watcher = .passing then some { s with watcher := .waiting } else none
  | .seeDone => if s.watcher = .waiting ∧ s.done then some { s with watcher := .gone } else none
  | .seeCancel =>
    if s.watcher = .waiting ∧ s.cancelled then some { s with watcher := .leaving } else none
  | .leave =>
    if s.watcher = .leaving then some { s with running := false, watcher := .gone } else none
  | .stop =>
    if s.caller = .idle then
      some (if s.running then { s with caller := .clearing } else s)
    else none
  | .clear =>
    if s.caller = .clearing then some { s with running := false, caller := .signalling } else none
  | .signal =>
    if s.caller = .signalling then
      some { s with
        done := true
        overruns := if s.done then s.overruns + 1 else s.overruns
        caller := .joining }
    else none
  | .join =>
    if s.caller = .joining ∧ s.watcher = .gone then some { s with caller := .shutting } else none
  | .shut =>
    if s.caller = .shutting then some { s.retire wanted with caller := .idle } else none

/-- The state after a label; it stays as it is if the label is not enabled. -/
def after (wanted : Bool) (s : State) (l : Label) : State := (s.step wanted l).getD s

def afterAll (wanted : Bool) (s : State) (ls : List Label) : State := ls.foldl (after wanted) s

/-- How many passes are being made. -/
def passes (s : State) : Nat :=
  (if s.caller = .starting then 1 else 0) + (if s.watcher = .passing then 1 else 0)

end State

end Gauntlet.Control
