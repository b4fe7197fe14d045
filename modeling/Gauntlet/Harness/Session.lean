import Gauntlet.Harness
import Gauntlet.Harness.Control

/-! # Sessions

  A session is a harness at work: it is started and stopped, and in between its
  watcher makes passes. Every operation follows labels of `Control`; passes are made
  where control says so.

  A harness that runs once answers a start with its verdict: nothing, the cases that
  failed, or the failure of a phase.
-/

namespace Gauntlet

/-- A harness at work. -/
structure Session (σ : Type) where
  scene : Scene σ
  control : Control.State := {}
  /-- The end of the program has been asked for. -/
  closing : Bool := false

namespace Session

open Control

variable {σ : Type}

def stopped (s : Session σ) : Bool := !s.control.running

def served (h : Harness) : Bool := Service.enabled h.settings.endpoints

def followed (h : Harness) (s : Session σ) (ls : List Label) : Session σ :=
  { s with control := s.control.afterAll (served h) ls }

/-- The session at the scene that a pass led to. Control takes note if the work was cancelled
    meanwhile. -/
def after (h : Harness) (s : Session σ) (scene : Scene σ) : Session σ :=
  let s := { s with scene }
  if scene.world.machine.cancelled then s.followed h [.cancel] else s

/-- Makes a pass. -/
def passed (h : Harness) (e : Surroundings σ) (s : Session σ) : Session σ × Option Failure :=
  let (scene, f) := h.pass e s.scene
  (s.after h scene, f)

/-- Brings up the service, if one is wanted. -/
def serve (h : Harness) (s : Session σ) : Session σ × Service × Option Failure :=
  if !served h then (s, s.control.service, none)
  else
    let w := s.scene.world
    let (service, metrics, f) := Service.start h.settings.endpoints s.control.service w.metrics
    ({ s with scene := { s.scene with world := { w with metrics } } }, service, f)

/-! ### Starting -/

/-- The harness no longer runs. -/
def halted (s : Session σ) : Session σ := { s with control := { s.control with running := false } }

/-- Ends a start that makes one pass: the service goes down. -/
def retired (h : Harness) (s : Session σ) : Session σ :=
  { s with control := { s.control.retire (served h) with caller := .idle } }

/-- The verdict of a harness that runs once, after its pass. -/
def verdict (s : Session σ) : Option Failure :=
  match s.scene.result with
  | some r => if r.status = .fail then some (.caseFailure r.failedCases r.total) else none
  | none => none

/-- Ends a start that made one pass, and answers with the failure of the pass or else with the
    verdict. -/
def answered (h : Harness) (s : Session σ) (f? : Option Failure) : Session σ × Option Failure :=
  let s := s.retired h
  match f?.or s.verdict with
  | some f => (halted s, some f)
  | none => ({ s with closing := true }, none)

def startOnce (h : Harness) (e : Surroundings σ) (s : Session σ) : Session σ × Option Failure :=
  let (s, f?) := s.passed h e
  s.answered h f?

def start (h : Harness) (e : Surroundings σ) (s : Session σ) : Session σ × Option Failure :=
  match s.serve h with
  | (s, service, some f) =>
    (s.followed h [.failedStart service], some (Phase.service.failure f))
  | (s, service, none) =>
    let s := s.followed h [.start service]
    if h.settings.runOnce then s.startOnce h e
    else ((s.passed h e).1.followed h [.started], none)

/-! ### Between start and stop -/

/-- The surrounding work is cancelled. -/
def cancel (h : Harness) (s : Session σ) : Session σ :=
  let w := s.scene.world
  let w := { w with machine := { w.machine with cancelled := true } }
  { s with scene := { s.scene with world := w } }.followed h [.cancel]

/-- The watcher reacts to what it can see. -/
def react (h : Harness) (s : Session σ) : Session σ := s.followed h [.seeDone, .seeCancel, .leave]

/-- The interval of the watcher ends: it makes a pass if the harness still runs. -/
def tick (h : Harness) (e : Surroundings σ) (s : Session σ) : Session σ :=
  let s := s.followed h [.tick, .look]
  if s.control.watcher = .passing then (s.passed h e).1.followed h [.passed] else s

/-- What the commands and the reports of a session printed since an earlier moment of it. -/
def outputSince (earlier s : Session σ) : Text × Text :=
  let w := s.scene.world.terminal
  let w₀ := earlier.scene.world.terminal
  let r := s.scene.streams
  let r₀ := earlier.scene.streams
  (w.out.drop w₀.out.length ++ r.out.written.drop r₀.out.written.length,
    w.err.drop w₀.err.length ++ r.err.written.drop r₀.err.written.length)

/-- Lets intervals end until the scene is as wanted, at most a number of them. -/
def tickUntil (h : Harness) (e : Surroundings σ) (wanted : Scene σ → Bool) :
    (most : Nat) → Session σ → Session σ
  | 0, s => s
  | n + 1, s => if wanted s.scene then s else tickUntil h e wanted n (s.tick h e)

/-! ### Stopping -/

/-- Stops the harness; the watcher leaves first. -/
def stop (h : Harness) (s : Session σ) : Session σ :=
  s.followed h [.stop, .clear, .signal, .seeDone, .join, .shut]

end Session

end Gauntlet
