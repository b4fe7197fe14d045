import Gauntlet.Metrics
import Gauntlet.Numeral
import Gauntlet.Service.Address
import Gauntlet.Settings

/-! # The service of a harness

  A long-running harness may offer two endpoints, a health probe and the metrics.
  Starting brings up those that are configured, the probe first; if the second
  cannot be brought up, the first is shut down again. So after a failed start
  nothing serves that did not serve before.

  An endpoint that is started again while it is up still holds its address. Only if the
  system chooses another port can a new one come up; it takes the place of the old one,
  which nobody can shut down any more.
-/

namespace Gauntlet

/-- Which endpoints are wanted. -/
structure Endpoints where
  /-- The address of the health probe; empty for none. -/
  healthz : Text := []
  metrics : MetricsEndpoint := {}
  deriving DecidableEq, Repr, Inhabited

/-- The state of one endpoint. -/
inductive Serving where
  /-- It never had an address. -/
  | unbound
  /-- It answers. -/
  | up
  | down
  deriving DecidableEq, Repr, Inhabited

/-- It has, or had, an address. -/
def Serving.bound : Serving → Bool
  | .unbound => false
  | _ => true

def Serving.shut : Serving → Serving
  | .up => .down
  | s => s

/-- How many endpoints are left behind when another one takes the place of this one. -/
def Serving.strays : Serving → Nat
  | .up => 1
  | _ => 0

/-- The state of the endpoints. -/
structure Service where
  healthz : Serving := .unbound
  metrics : Serving := .unbound
  /-- How many endpoints still answer although others have taken their place. -/
  abandoned : Nat := 0
  deriving DecidableEq, Repr, Inhabited

def Settings.endpoints (s : Settings) : Endpoints := ⟨s.healthzAddr, s.metrics⟩

namespace Service

/-- Some endpoint is wanted. -/
def enabled (e : Endpoints) : Bool := e.healthz ≠ [] || e.metrics.enabled

def listenFailure (f : AddressFault) : Failure := .plain f.message

def metricsAddress (m : MetricsEndpoint) : Text := join m.addr (Numeral.ofInt m.port)

def metricsFailure (m : MetricsEndpoint) (f : AddressFault) : Failure :=
  .wrap "failed to start metrics server"
    (some (.wrap ("failed to bind to address " ++ Text.quoted (metricsAddress m))
      (some (listenFailure f))))

/-- The bindings that the endpoints hold while they are up. Those that were left behind
    hold ports that the system chose. -/
def bindings (e : Endpoints) (s : Service) : List Binding :=
  (if s.healthz = .up then (listen [] e.healthz).toOption.toList else []) ++
    if s.metrics = .up then (listen [] (metricsAddress e.metrics)).toOption.toList else []

/-- Brings up the health probe, while others hold some bindings. -/
def startHealthz (e : Endpoints) (s : Service) (m : Metrics) (others : List Binding := []) :
    Service × Metrics × Option Failure :=
  if e.healthz = [] then (s, m, none)
  else match listen (others ++ bindings e s) e.healthz with
    | .ok _ =>
      ({ s with healthz := .up, abandoned := s.abandoned + s.healthz.strays }, m, none)
    | .error f =>
      let cause := listenFailure f
      (s, m.recordErrorDetails "healthz" (some cause),
        some (.wrap "failed to start healthz server" (some cause)))

/-- Brings up the metrics endpoint; if that fails the health probe goes down. -/
def startMetrics (e : Endpoints) (s : Service) (others : List Binding := []) :
    Service × Option Failure :=
  if !e.metrics.enabled then (s, none)
  else match listen (others ++ bindings e s) (metricsAddress e.metrics) with
    | .ok _ => ({ s with metrics := .up, abandoned := s.abandoned + s.metrics.strays }, none)
    | .error f => ({ s with healthz := s.healthz.shut }, some (metricsFailure e.metrics f))

/-- Brings up the endpoints that are wanted. -/
def start (e : Endpoints) (s : Service) (m : Metrics) (others : List Binding := []) :
    Service × Metrics × Option Failure :=
  match startHealthz e s m others with
  | (s, m, some f) => (s, m, some f)
  | (s, m, none) =>
    let (s, f) := startMetrics e s others
    (s, m, f)

/-- Shuts both endpoints down. -/
def shutdown (s : Service) : Service :=
  { s with healthz := s.healthz.shut, metrics := s.metrics.shut }

/-- Something still answers. -/
def isUp (s : Service) : Bool := s.healthz = .up || s.metrics = .up || 0 < s.abandoned

end Service

end Gauntlet
