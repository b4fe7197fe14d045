import Gauntlet.Path
import Gauntlet.Service

/-! # Health answers

  The health probe answers every method on one path and nothing on others. Paths
  that are not in their shortest form are redirected to it. Pages of any origin may
  ask: simple methods are allowed across origins, and a preflight request learns
  whether its method and headers are.
-/

namespace Gauntlet.Service

open Text

/-- A request. -/
structure Request where
  method : Text
  path : Text
  headers : List (Text × Text) := []
  deriving DecidableEq, Repr

/-- An answer; a header may have several values. -/
structure Answer where
  status : Nat
  body : Text := []
  headers : List (Text × List Text) := []
  deriving DecidableEq, Repr

/-- The value of a header; names are compared without regard to case. -/
def Request.header (r : Request) (name : Text) : Text :=
  ((r.headers.find? fun h => h.1.lower = name.lower).map (·.2)).getD []

def probePath : Text := "/healthz"

def allowedMethods : List Text := ["GET", "POST", "HEAD"]

def allowedHeaders : List Text := ["accept", "content-type", "x-requested-with"]

def plainType : Text × List Text := ("Content-Type", ["text/plain; charset=utf-8"])

/-- The headers on which an answer depends. -/
def varying (names : Text) : Text × List Text := ("Vary", [names])

/-- Any origin may read the answer. -/
def anyOrigin : Text × List Text := ("Access-Control-Allow-Origin", ["*"])

def allowing (method : Text) : Text × List Text := ("Access-Control-Allow-Methods", [method])

/-- The shortest form of a path; a slash at its end stays. -/
def shortest (p : Text) : Text :=
  let p := if p.head? = some Path.slash then p else Path.slash :: p
  let c := Path.clean p
  if p.getLast? = some Path.slash && c ≠ "/" then c ++ "/" else c

/-- The answer to a request that is no preflight. -/
def plainAnswer (r : Request) : Answer :=
  let shared : List (Text × List Text) :=
    (if r.header "Origin" ≠ [] && allowedMethods.contains r.method then [anyOrigin] else []) ++
      [varying "Origin", plainType]
  let shown (t : Text) : Text := if r.method = "HEAD" then [] else t
  if shortest r.path = probePath then { status := 200, body := shown "OK", headers := shared }
  else { status := 404, body := shown "404 page not found\n", headers := shared }

def requestedHeaders (r : Request) : List Text :=
  ((splitOn (byte ',') (r.header "Access-Control-Request-Headers")).map Text.trimmed).filter (· ≠ [])

def preflightAnswer (r : Request) : Answer :=
  let method := r.header "Access-Control-Request-Method"
  let granted := r.header "Origin" ≠ [] && allowedMethods.contains method &&
    (requestedHeaders r).all fun h => allowedHeaders.contains h.lower
  { status := 204
    headers :=
      (if granted then [anyOrigin, allowing method] else []) ++
        [varying "Origin, Access-Control-Request-Method, Access-Control-Request-Headers"] }

/-- The answer of the health probe. -/
def answer (r : Request) : Answer :=
  if r.method = "OPTIONS" && r.header "Access-Control-Request-Method" ≠ [] then preflightAnswer r
  else plainAnswer r

/-- What becomes of a request to an endpoint. -/
inductive Reply where
  /-- The endpoint never had an address. -/
  | unbound
  /-- No connection comes about. -/
  | unreachable
  | answered (a : Answer)
  deriving DecidableEq, Repr

/-- What becomes of a request; `connected` tells whether the client has a route to
    the endpoint. -/
def reply (connected : Bool) (s : Serving) (a : Answer) : Reply :=
  match s with
  | .unbound => .unbound
  | .down => .unreachable
  | .up => if connected then .answered a else .unreachable

end Gauntlet.Service
