import Gauntlet.CaseLog
import Gauntlet.Command
import Gauntlet.Metrics
import Gauntlet.Span

/-! # The world of a run

  Everything that running cases changes: the machine, what the toolchain remembers,
  the terminal, the metrics, the spans, and the list of commands issued so far.
-/

namespace Gauntlet

/-- The state in which commands are issued; `σ` is what the toolchain remembers. -/
structure World (σ : Type) where
  machine : Machine
  memory : σ
  terminal : Terminal := {}
  metrics : Metrics := {}
  spans : List Span := []
  /-- The commands issued, in order. -/
  issued : List Command := []

namespace World

variable {σ : Type}

def disk (w : World σ) : Disk := w.machine.disk

/-- The world with another disk. -/
def withDisk (w : World σ) (d : Disk) : World σ := { w with machine := { w.machine with disk := d } }

def ended (w : World σ) (s : Span) : World σ := { w with spans := w.spans ++ [s] }

def measured (w : World σ) (f : Metrics → Metrics) : World σ := { w with metrics := f w.metrics }

/-- Takes pieces of output: the terminal gets them as they are, and so does the log,
    if there is one. A failure of the log is passed over. -/
def takeOutput (w : World σ) (log : Option CaseLog) :
    List (Channel × Text) → World σ × Option CaseLog
  | [] => (w, log)
  | (c, piece) :: rest =>
    let w := { w with terminal := w.terminal.write c piece }
    match log with
    | none => takeOutput w none rest
    | some l =>
      let (l, d, _) := l.write w.disk c piece
      takeOutput (w.withDisk d) (some l) rest

/-- Issues a command; its output goes to the terminal and to the log. -/
def issue (w : World σ) (tools : Toolchain σ) (log : Option CaseLog) (c : Command) :
    Ending × World σ × Option CaseLog :=
  let r := tools c w.memory w.machine
  let w := { w with machine := r.machine, memory := r.memory, issued := w.issued ++ [c] }
  let (w, log) := w.takeOutput log r.writes
  (r.ending, w, log)

end World

end Gauntlet
