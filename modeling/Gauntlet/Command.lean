import Gauntlet.Disk
import Gauntlet.Terminal

/-! # Commands and toolchains

  A command is a program with arguments, a directory and a time limit. A
  toolchain says what commands do: how they end, what they write, and what
  becomes of the disk. It may remember things between commands, and a command
  may end with the run cancelled.
-/

namespace Gauntlet

/-- One invocation of a program. -/
structure Command where
  program : Text
  args : List Text := []
  /-- The directory in which the program runs. -/
  dir : Text := []
  /-- The time limit; zero or less means none. -/
  timeout : Duration := Duration.zero
  /-- The output is captured; otherwise it goes to the terminal. -/
  captured : Bool := false
  deriving DecidableEq, Repr, Inhabited

def Command.text (c : Command) : Text := Text.intercalate " " (c.program :: c.args)

/-- What commands act on: the disk, and whether the run has been cancelled. -/
structure Machine where
  disk : Disk
  cancelled : Bool := false
  deriving Inhabited

/-- What a command did. -/
structure Reaction (σ : Type) where
  ending : Ending
  /-- The pieces of output in the order in which they were written. -/
  writes : List (Channel × Text) := []
  machine : Machine
  memory : σ

/-- How commands behave; `σ` is what is remembered between them. -/
abbrev Toolchain (σ : Type) := Command → σ → Machine → Reaction σ

/-- The cause that a cancelled run gives. -/
def cancellation : Failure := .plain "context canceled"

/-- The failure of a command, unless it ended well. -/
def Reaction.failure? {σ : Type} (r : Reaction σ) (c : Command) : Option Failure :=
  if r.ending.success then none else some (Failure.ofEnding c.text r.ending)

end Gauntlet
