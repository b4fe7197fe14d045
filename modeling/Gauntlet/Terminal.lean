import Gauntlet.Text

/-! # The terminal

  The two streams of the program itself. What child processes write appears here as
  it is.
-/

namespace Gauntlet

/-- The two output streams of a program. -/
inductive Channel where
  | out
  | err
  deriving DecidableEq, Repr, Inhabited

/-- What was written to the terminal. -/
structure Terminal where
  out : Text := []
  err : Text := []
  deriving DecidableEq, Repr, Inhabited

/-- The terminal after one more piece of output. -/
def Terminal.write (t : Terminal) (c : Channel) (piece : Text) : Terminal :=
  match c with
  | .out => { t with out := t.out ++ piece }
  | .err => { t with err := t.err ++ piece }

end Gauntlet
