import Gauntlet.Metrics
import Gauntlet.Proofs.SortedMap

/-! # Metrics as counts

  What a course records is made of single updates, each of one series (`Tick`). Updates of
  different cases can come in any order, and for the values of the series it does not matter:
  each of them counts the ticks that are meant for it.

  - `recordStage_eq`, `recordCase_eq` and `recordErrorDetails_eq` take recording apart.
  - `invocations_ticked`, `observations_ticked`, `results_ticked` and `resultTotal_ticked` tell
    the values after a list of ticks.
-/

namespace Gauntlet

/-- One update of one series. -/
inductive Tick where
  /-- A stage was invoked, and it passed or failed. -/
  | invoked (s : Stage) (passed : Bool)
  /-- A stage lasted some time. -/
  | lasted (s : Stage) (d : Duration)
  /-- A case ended. -/
  | ended (v : Verdict)
  /-- An error arose. -/
  | error (label : Text)
  deriving DecidableEq, Repr

namespace Tick

/-- The stage was invoked, with the given outcome. -/
def isInvoked (s : Stage) (passed : Bool) : Tick → Bool
  | invoked s' passed' => s' = s && passed' = passed
  | _ => false

/-- The time of the stage was taken. -/
def isLasted (s : Stage) : Tick → Bool
  | lasted s' _ => s' = s
  | _ => false

/-- A case ended with the verdict. -/
def isEnded (v : Verdict) : Tick → Bool
  | ended v' => v' = v
  | _ => false

/-- A case ended. -/
def isEnd : Tick → Bool
  | ended _ => true
  | _ => false

end Tick

namespace Metrics

/-! ### Ticks -/

/-- The metrics after a tick. -/
def tick (m : Metrics) : Tick → Metrics
  | .invoked s passed =>
    { m with stageInvocations :=
        counted m.stageInvocations [(Status.ofBool passed).word, s.name] }
  | .lasted s d =>
    let before := valueOr m.stageDurations [s.name] []
    { m with stageDurations := m.stageDurations.insert [s.name] (before ++ [d.seconds]) }
  | .ended v => { m with caseResults := counted m.caseResults [v.failedStage, v.status.word] }
  | .error label => { m with errors := counted m.errors [label] }

/-- The metrics after some ticks. -/
def ticked (m : Metrics) (ts : List Tick) : Metrics := ts.foldl tick m

theorem ticked_append (m : Metrics) (ts ts' : List Tick) :
    m.ticked (ts ++ ts') = (m.ticked ts).ticked ts' := List.foldl_append

theorem recordStage_eq (m : Metrics) (s : Stage) (passed : Bool) (d : Duration) :
    m.recordStage s passed d = m.ticked [.invoked s passed, .lasted s d] := rfl

theorem recordCase_eq (m : Metrics) (v : Verdict) :
    m.recordCase v.status v.failedStage = m.ticked [.ended v] := by
  cases v <;> rfl

theorem recordErrorDetails_eq (m : Metrics) (label : Text) (f : Failure) :
    m.recordErrorDetails label (some f) =
      m.ticked [.error (label ++ "." ++ errorLabel (some f))] := rfl

/-! ### Values -/

/-- How often a stage was invoked with the given outcome. -/
def invocations (m : Metrics) (s : Stage) (passed : Bool) : Nat :=
  valueOr m.stageInvocations [(Status.ofBool passed).word, s.name] 0

/-- How many durations of a stage were observed. -/
def observations (m : Metrics) (s : Stage) : Nat := (valueOr m.stageDurations [s.name] []).length

/-- How many cases ended with the verdict. -/
def results (m : Metrics) (v : Verdict) : Nat :=
  valueOr m.caseResults [v.failedStage, v.status.word] 0

/-- How many cases ended, over all series. -/
def resultTotal (m : Metrics) : Nat := (m.caseResults.pairs.map Prod.snd).sum

theorem valueOr_counted (family : Family Nat) (labels labels' : List Text) :
    valueOr (counted family labels) labels' 0 =
      valueOr family labels' 0 + if labels' = labels then 1 else 0 := by
  rw [counted, valueOr, SortedMap.get?_insert]
  by_cases h : labels' = labels
  · simp [h]
  · simp [h, valueOr]

theorem ofBool_word_inj {b b' : Bool} (h : (Status.ofBool b).word = (Status.ofBool b').word) :
    b = b' := by
  revert h
  cases b <;> cases b' <;> decide

theorem invocation_labels_inj {s s' : Stage} {b b' : Bool} :
    [(Status.ofBool b).word, s.name] = [(Status.ofBool b').word, s'.name] ↔ s' = s ∧ b' = b := by
  constructor
  · intro h
    obtain ⟨hword, hname⟩ : (Status.ofBool b).word = (Status.ofBool b').word ∧
        s.name = s'.name := by simpa using h
    obtain ⟨name⟩ := s
    exact ⟨by rw [show name = s'.name from hname], (ofBool_word_inj hword).symm⟩
  · rintro ⟨rfl, rfl⟩
    rfl

theorem result_labels_inj {v v' : Verdict} :
    [v.failedStage, v.status.word] = [v'.failedStage, v'.status.word] ↔ v' = v := by
  constructor
  · intro h
    obtain ⟨hstage, hword⟩ : v.failedStage = v'.failedStage ∧ v.status.word = v'.status.word := by
      simpa using h
    have hpassed : v.passed = v'.passed := ofBool_word_inj hword
    cases v <;> cases v'
    case pass.pass => rfl
    case failedAt.failedAt s s' =>
      obtain ⟨name⟩ := s
      rw [show name = s'.name from hstage]
    all_goals simp [Verdict.passed] at hpassed
  · rintro rfl
    rfl

/-- A value that each tick of a kind raises by one is raised by their number. -/
theorem ticked_value {f : Metrics → Nat} {p : Tick → Bool}
    (hf : ∀ m t, f (m.tick t) = f m + if p t then 1 else 0) (m : Metrics) (ts : List Tick) :
    f (m.ticked ts) = f m + ts.countP p := by
  induction ts generalizing m with
  | nil => rfl
  | cons t ts ih =>
    have hrest := ih (m.tick t)
    show f ((m.tick t).ticked ts) = _
    rw [hrest, hf, List.countP_cons]
    omega

theorem invocations_ticked (m : Metrics) (s : Stage) (passed : Bool) (ts : List Tick) :
    (m.ticked ts).invocations s passed = m.invocations s passed +
      ts.countP (Tick.isInvoked s passed) := by
  refine ticked_value (f := fun m => m.invocations s passed) ?_ m ts
  intro m t
  cases t with
  | invoked s' passed' =>
    show valueOr (counted m.stageInvocations _) _ 0 = _
    rw [valueOr_counted]
    simp only [invocation_labels_inj, Tick.isInvoked, Bool.and_eq_true, decide_eq_true_eq]
    rfl
  | lasted s' d => rfl
  | ended v => rfl
  | error label => rfl

theorem observations_ticked (m : Metrics) (s : Stage) (ts : List Tick) :
    (m.ticked ts).observations s = m.observations s + ts.countP (Tick.isLasted s) := by
  refine ticked_value (f := fun m => m.observations s) ?_ m ts
  intro m t
  cases t with
  | lasted s' d =>
    show (valueOr (m.stageDurations.insert [s'.name] _) [s.name] []).length = _
    have hname : [s.name] = [s'.name] ↔ s' = s := by
      obtain ⟨name⟩ := s
      obtain ⟨name'⟩ := s'
      simp [eq_comm]
    rw [valueOr, SortedMap.get?_insert]
    by_cases h : s' = s
    · simp [h, Tick.isLasted, observations]
    · simp [hname, h, Tick.isLasted, observations, valueOr]
  | invoked s' passed => rfl
  | ended v => rfl
  | error label => rfl

theorem results_ticked (m : Metrics) (v : Verdict) (ts : List Tick) :
    (m.ticked ts).results v = m.results v + ts.countP (Tick.isEnded v) := by
  refine ticked_value (f := fun m => m.results v) ?_ m ts
  intro m t
  cases t with
  | ended v' =>
    show valueOr (counted m.caseResults _) _ 0 = _
    rw [valueOr_counted]
    simp only [result_labels_inj, Tick.isEnded, decide_eq_true_eq]
    rfl
  | invoked s passed => rfl
  | lasted s d => rfl
  | error label => rfl

theorem resultTotal_ticked (m : Metrics) (ts : List Tick) :
    (m.ticked ts).resultTotal = m.resultTotal + ts.countP Tick.isEnd := by
  refine ticked_value (f := resultTotal) ?_ m ts
  intro m t
  cases t with
  | ended v =>
    have hsum := m.caseResults.sum_insert [v.failedStage, v.status.word]
      (valueOr m.caseResults [v.failedStage, v.status.word] 0 + 1)
    show ((m.caseResults.insert _ _).pairs.map Prod.snd).sum =
      (m.caseResults.pairs.map Prod.snd).sum + 1
    rw [valueOr] at hsum ⊢
    omega
  | invoked s passed => rfl
  | lasted s d => rfl
  | error label => rfl

end Metrics

end Gauntlet
