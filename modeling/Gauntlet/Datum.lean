import Gauntlet.Instant

/-! # Data to be written

  A datum is what a report consists of: texts, numbers, truth values, instants,
  lists, and records with named fields in a fixed order. It can be written as JSON
  and as YAML.
-/

namespace Gauntlet

/-- A value of a report. -/
inductive Datum where
  | text (t : Text)
  | number (n : Int)
  | truth (b : Bool)
  | instant (z : ZonedInstant)
  | list (items : List Datum)
  | record (fields : List (Text × Datum))
  deriving Repr, Inhabited

namespace Datum

def named (name : String) (d : Datum) : Text × Datum := (Text.ofString name, d)

/-- A text field that is left out when it is empty. -/
def namedUnlessEmpty (name : String) (t : Text) : List (Text × Datum) :=
  if t = [] then [] else [named name (.text t)]

end Datum

end Gauntlet
