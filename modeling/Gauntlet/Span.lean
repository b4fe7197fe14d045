import Gauntlet.Datum

/-! # Spans

  A span tells about one piece of work: which work it was part of, whether it went
  wrong, and its attributes. Spans are kept in the order in which they ended.
-/

namespace Gauntlet

/-- A piece of work that ended. -/
structure Span where
  name : Text
  /-- The name of the span around it, if there is one. -/
  parent : Option Text := none
  /-- What went wrong, if something did. -/
  problem : Option Text := none
  attributes : List (Text × Datum) := []
  deriving Repr, Inhabited

end Gauntlet
