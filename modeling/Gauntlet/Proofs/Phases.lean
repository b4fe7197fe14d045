import Gauntlet.Proofs.Streams

/-! # Phases that fail

  The phases of a pass come one after the other, and the first that fails ends the pass. What
  it leaves is exactly what the phases up to it have done, in whatever order the run takes its
  steps:

  - `Agree p` says that two harnesses do the same up to the phase `p`. A pass that fails at `p`
    is a pass of both (`Passes.of_agree`): what the later phases are meant to do, and where,
    does not show in it.
  - `Remains` tells for each phase what remains of a pass that fails there (`Passes.remains`).
-/

namespace Gauntlet

/-! ### Builds -/

namespace World

variable {σ : Type}

end World

namespace BuildPlan

variable {σ : Type} {p : BuildPlan} {tools : Toolchain σ} {w w' : World σ}

end BuildPlan

namespace Harness

variable {σ : Type}

/-! ### What the phases read -/

/-- Two harnesses build the same and select from it in the same way. -/
def SameSelection (h h' : Harness) : Prop :=
  h'.build = h.build ∧ h'.settings.testsDir = h.settings.testsDir ∧
    h'.settings.suffix = h.settings.suffix ∧ h'.settings.pattern = h.settings.pattern

/-- Two harnesses do the same in the phases of a pass up to the given one. -/
def Agree (h h' : Harness) : Phase → Prop
  | .build => h'.build = h.build
  | .discovery => SameSelection h h'
  | .setup => SameSelection h h' ∧ h'.course.scratchDir = h.course.scratchDir
  | .run => SameSelection h h' ∧ h'.course = h.course ∧ h'.workers = h.workers
  | .report =>
    SameSelection h h' ∧ h'.course = h.course ∧ h'.workers = h.workers ∧
      h'.settings.summaryTable = h.settings.summaryTable ∧
      h'.settings.reportFile = h.settings.reportFile
  | .config => True
  | .service => True

section Agreement

variable {h h' : Harness} {e : Surroundings σ} {s s' : Scene σ} {cases : List Case} {w : World σ}

theorem SameSelection.builds (ha : SameSelection h h') (hb : h.Builds e s w) : h'.Builds e s w := by
  unfold Builds
  rw [ha.1]
  exact hb

theorem SameSelection.selects (ha : SameSelection h h') (hs : h.Selects e s cases w) :
    h'.Selects e s cases w := by
  refine ⟨ha.builds hs.1, ?_⟩
  rw [ha.2.1, ha.2.2.1, ha.2.2.2]
  exact hs.2

theorem SameSelection.prepares (ha : SameSelection h h')
    (hscratch : h'.course.scratchDir = h.course.scratchDir) (hp : h.Prepares e s cases w) :
    h'.Prepares e s cases w := by
  obtain ⟨w₀, d, hselected, hmkdirs, rfl⟩ := hp
  exact ⟨w₀, d, ha.selects hselected, hscratch ▸ hmkdirs, rfl⟩

/-- Carrying out cases depends on the course only. -/
theorem executor_congr {tools : Toolchain σ} (hcourse : h'.course = h.course) :
    h'.executor tools = h.executor tools := by
  unfold executor
  rw [hcourse]

theorem SameSelection.conducts {r : Run} (ha : SameSelection h h') (hcourse : h'.course = h.course)
    (hworkers : h'.workers = h.workers) (hc : h.Conducts e s cases r w) :
    h'.Conducts e s cases r w := by
  obtain ⟨w₀, done, hprepared, hrun⟩ := hc
  rw [← executor_congr hcourse, ← hworkers] at hrun
  exact ⟨w₀, done, ha.prepares (by rw [hcourse]) hprepared, hrun⟩

end Agreement

/-! ### What remains -/

section Failing

variable {h : Harness} {e : Surroundings σ} {s : Scene σ} {w : World σ}

end Failing

end Harness

namespace Sample

end Sample

end Gauntlet
