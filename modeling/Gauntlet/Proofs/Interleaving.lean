import Gauntlet.Proofs.Artifacts
import Mathlib.Logic.Function.Iterate

/-! # Courses in turns

  The course of a case can be cut into moves, so that several cases can go their ways on one
  world, each making a move when it is its turn.

  - `move` removes one artifact, opens the log, checks a stage, issues its command, or ends
    the course.
  - Made one after the other, ten moves are the whole course (`move_iterate_eq_run`).
  - `interleave` lets cases take turns in a given order.
-/

namespace Gauntlet

/-- How far a case has come. -/
inductive Point where
  /-- Artifacts have still to be removed. -/
  | clearing (left : List Text)
  /-- The next of some stages has to be checked. -/
  | checking (log : Option CaseLog) (records : List StageRecord) (stages : List Stage)
  /-- A stage has been checked, and its command has to be issued. -/
  | performing (log : Option CaseLog) (records : List StageRecord) (s : Stage) (rest : List Stage)
  | done (r : CaseResult)

namespace Course

variable {σ : Type}

/-- Where a case starts. -/
def outset (c : Course) (case : Case) : Point := .clearing (c.artifacts case).paths

/-- The world after a stage, with its outcome counted. -/
def counted (s : Stage) (r : StageRecord) (w : World σ) : World σ :=
  w.measured fun m => m.recordStage s r.passed r.duration

/-- One move of a case. -/
def move (c : Course) (tools : Toolchain σ) (id : Text) (case : Case) :
    Point × World σ → Point × World σ
  | (.clearing [], w) =>
    let (w, log) := c.openLog id case w
    (.checking log [] Stage.all, w)
  | (.clearing (p :: left), w) =>
    match Artifacts.discard w.disk p with
    | .ok d => (.clearing left, w.withDisk d)
    | .error f =>
      let (r, w) := finish (resultOf case [hinderedRecord .interpret f]) w
      (.done r, w)
  | (.checking log records [], w) =>
    let (r, w) := finish (resultOf case records) (closeLog w log)
    (.done r, w)
  | (.checking log records (s :: rest), w) =>
    match c.hindrance? case s w.machine with
    | some h =>
      let r := hinderedRecord s h.failure
      (.checking log (records ++ [r]) [], counted s r (w.ended (hinderedSpan case s h)))
    | none => (.performing log records s rest, w)
  | (.performing log records s rest, w) =>
    let (r, w, log) := c.perform tools case s w log
    (.checking log (records ++ [r]) (if r.passed then rest else []), counted s r w)
  | (.done r, w) => (.done r, w)

/-- The end of a course with given records. -/
def ending (case : Case) (records : List StageRecord) (w : World σ) (log : Option CaseLog) :
    Point × World σ :=
  let f := finish (resultOf case records) (closeLog w log)
  (.done f.1, f.2)

section Moves

variable (c : Course) (tools : Toolchain σ) (id : Text) (case : Case)

/-! ### What each move does -/

theorem move_cleared (w : World σ) :
    c.move tools id case (.clearing [], w) =
      (.checking (c.openLog id case w).2 [] Stage.all, (c.openLog id case w).1) := rfl

theorem move_removed {w : World σ} {p : Text} {d : Disk} (left : List Text)
    (h : Artifacts.discard w.disk p = .ok d) :
    c.move tools id case (.clearing (p :: left), w) = (.clearing left, w.withDisk d) := by
  simp only [move, h]

theorem move_stuck {w : World σ} {p : Text} {f : Failure} (left : List Text)
    (h : Artifacts.discard w.disk p = .error f) :
    c.move tools id case (.clearing (p :: left), w) =
      ending case [hinderedRecord .interpret f] w none := by
  simp only [move, h]
  rfl

theorem move_last (log : Option CaseLog) (records : List StageRecord) (w : World σ) :
    c.move tools id case (.checking log records [], w) = ending case records w log := rfl

theorem move_hindered {s : Stage} {w : World σ} {h : Hindrance} (log : Option CaseLog)
    (records : List StageRecord) (rest : List Stage)
    (hh : c.hindrance? case s w.machine = some h) :
    c.move tools id case (.checking log records (s :: rest), w) =
      (.checking log (records ++ [hinderedRecord s h.failure]) [],
        counted s (hinderedRecord s h.failure) (w.ended (hinderedSpan case s h))) := by
  simp only [move, hh]

theorem move_checked {s : Stage} {w : World σ} (log : Option CaseLog)
    (records : List StageRecord) (rest : List Stage)
    (hh : c.hindrance? case s w.machine = none) :
    c.move tools id case (.checking log records (s :: rest), w) =
      (.performing log records s rest, w) := by
  simp only [move, hh]

theorem move_performed (log : Option CaseLog) (records : List StageRecord) (s : Stage)
    (rest : List Stage) (w : World σ) :
    c.move tools id case (.performing log records s rest, w) =
      (.checking (c.perform tools case s w log).2.2
          (records ++ [(c.perform tools case s w log).1])
          (if (c.perform tools case s w log).1.passed then rest else []),
        counted s (c.perform tools case s w log).1 (c.perform tools case s w log).2.1) := rfl

/-! ### A course is made of moves -/

theorem move_iterate_done (r : CaseResult) (w : World σ) (n : Nat) :
    (c.move tools id case)^[n] (.done r, w) = (.done r, w) :=
  Function.iterate_fixed rfl n

/-- Once no stage is left, the course ends with the next move. -/
theorem move_iterate_last (log : Option CaseLog) (records : List StageRecord) (w : World σ)
    (n : Nat) :
    (c.move tools id case)^[n + 1] (.checking log records [], w) = ending case records w log := by
  rw [Function.iterate_succ_apply, move_last]
  exact c.move_iterate_done tools id case _ _ n

/-- Two moves for each stage that is left, and one more, run the stages. -/
theorem move_iterate_stages (stages : List Stage) (log : Option CaseLog)
    (records : List StageRecord) (w : World σ) :
    (c.move tools id case)^[2 * stages.length + 1] (.checking log records stages, w) =
      ending case (records ++ (c.runStages tools case stages w log).1)
        (c.runStages tools case stages w log).2.1 (c.runStages tools case stages w log).2.2 := by
  induction stages generalizing log records w with
  | nil =>
    rw [runStages, List.append_nil]
    exact c.move_iterate_last tools id case log records w 0
  | cons s rest ih =>
    have hlength : 2 * (s :: rest).length + 1 = 2 * rest.length + 1 + 1 + 1 := by
      rw [List.length_cons]
      omega
    rw [hlength, Function.iterate_succ_apply]
    cases hh : c.hindrance? case s w.machine with
    | some h =>
      -- The stage is hindered: its record is the last one.
      have hfailed : (hinderedRecord s h.failure).passed = false := by
        simp [StageRecord.passed, hinderedRecord]
      have hstage : c.runStage tools case s w log =
          (hinderedRecord s h.failure, w.ended (hinderedSpan case s h), log) := by
        simp only [runStage, hh]
      rw [c.move_hindered tools id case log records rest hh, c.move_iterate_last tools id case]
      simp only [runStages, hstage, hfailed, Bool.false_eq_true, if_false, counted]
    | none =>
      -- The check passes, and the next move issues the command.
      have hstage : c.runStage tools case s w log = c.perform tools case s w log := by
        simp only [runStage, hh]
      rw [c.move_checked tools id case log records rest hh, Function.iterate_succ_apply,
        move_performed]
      simp only [runStages, hstage]
      generalize c.perform tools case s w log = performed
      obtain ⟨r, w', log'⟩ := performed
      cases hr : r.passed with
      | true =>
        simp only [if_true, ih, List.append_assoc, List.singleton_append]
        simp only [counted, hr]
      | false =>
        simp only [Bool.false_eq_true, if_false]
        rw [c.move_iterate_last tools id case]
        simp only [counted, hr]

/-- Ten moves, or more, take a case through its course. -/
theorem move_iterate_eq_run (w : World σ) {n : Nat} (hn : 10 ≤ n) :
    (c.move tools id case)^[n] (c.outset case, w) =
      (.done (c.run tools id case w).1, (c.run tools id case w).2) := by
  -- Two moves remove artifacts, one opens the log, and seven are for the stages.
  obtain ⟨k, rfl⟩ : ∃ k, n = k + 7 + 1 + 1 + 1 := ⟨n - 10, by omega⟩
  rw [Function.iterate_succ_apply, outset, Artifacts.paths]
  unfold run Artifacts.clean
  cases hs : Artifacts.discard w.disk (c.artifacts case).assembly with
  | error f =>
    rw [c.move_stuck tools id case _ hs]
    exact c.move_iterate_done tools id case _ _ _
  | ok d₁ =>
    rw [c.move_removed tools id case _ hs, Function.iterate_succ_apply]
    dsimp only
    cases hb : Artifacts.discard d₁ (c.artifacts case).binary with
    | error f =>
      rw [c.move_stuck tools id case [] (w := w.withDisk d₁) hb]
      exact c.move_iterate_done tools id case _ _ _
    | ok d₂ =>
      rw [c.move_removed tools id case [] (w := w.withDisk d₁) hb, Function.iterate_succ_apply,
        show (w.withDisk d₁).withDisk d₂ = w.withDisk d₂ from rfl, move_cleared,
        Function.iterate_add_apply]
      have hstages := c.move_iterate_stages tools id case Stage.all
        (c.openLog id case (w.withDisk d₂)).2 [] (c.openLog id case (w.withDisk d₂)).1
      rw [show 2 * Stage.all.length + 1 = 7 from rfl, List.nil_append] at hstages
      rw [hstages]
      exact c.move_iterate_done tools id case _ _ k

end Moves

/-! ### Turns -/

/-- A world that cases share, and how far each of them has come. -/
structure Shared (σ : Type) where
  world : World σ
  points : Case → Point

/-- The turn of a case. -/
def turn (c : Course) (tools : Toolchain σ) (id : Text) (s : Shared σ) (case : Case) : Shared σ :=
  let next := c.move tools id case (s.points case, s.world)
  { world := next.2, points := Function.update s.points case next.1 }

/-- Cases take turns in a given order. -/
def interleave (c : Course) (tools : Toolchain σ) (id : Text) (w : World σ) (turns : List Case) :
    Shared σ :=
  turns.foldl (c.turn tools id) { world := w, points := c.outset }

theorem interleave_concat (c : Course) (tools : Toolchain σ) (id : Text) (w : World σ)
    (turns : List Case) (case : Case) :
    c.interleave tools id w (turns ++ [case]) =
      c.turn tools id (c.interleave tools id w turns) case := by
  simp [interleave]

end Course

end Gauntlet
