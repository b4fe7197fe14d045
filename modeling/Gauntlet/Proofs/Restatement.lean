import Gauntlet.Proofs.Verdict
import Gauntlet.Report.Content
import Gauntlet.Report.Table

/-! # What is said of a run

  A run is shown as a summary on two streams, as a report for other programs, as a text and
  as a table. Each view is made from the recorded results on its own, and each has a place
  that tells which cases failed.

  - What a report, a text and a table say about one result is told by `Restates`, `Mentions`
    and `Shows`.
  - A run that was conducted to its end is faithful to its cases (`Conducts.faithful`), and
    then all views name the same failing cases in the order of selection (`views_agree`).
-/

namespace Gauntlet

open Report

/-! ### Results -/

theorem CaseResult.status_eq_pass_iff (x : CaseResult) : x.status = .pass ↔ x.verdict = .pass := by
  rw [← x.verdict.passed_iff]
  simp [status, Verdict.status, Status.ofBool]

theorem CaseResult.status_eq_fail_iff (x : CaseResult) : x.status = .fail ↔ x.verdict ≠ .pass := by
  rw [ne_eq, ← x.verdict.passed_iff]
  simp [status, Verdict.status, Status.ofBool]

/-- A verdict that is recorded by the name of a stage has failed exactly if it has a name. -/
theorem Verdict.failedStage_ofStage (s : Stage) :
    (ofStage s).failedStage ≠ [] ↔ ofStage s ≠ .pass := by
  unfold ofStage
  split
  · simp [failedStage]
  · rename_i hname
    simp [failedStage, hname]

/-- The executor has a result for every case. It carries the case, and its verdict is
    recorded by the name of a stage. -/
structure Run.Executor.Replies {ω : Type} (e : Run.Executor ω) : Prop where
  result : ∀ id c w, (e.carryOut id c w).1.isSome = true
  case : ∀ id c w x, (e.carryOut id c w).1 = some x → x.case = c
  verdict : ∀ id c w x, (e.carryOut id c w).1 = some x → ∃ s, x.verdict = .ofStage s

namespace Run

/-- The run holds one result for each case, in order, and its totals and its status are those
    of the results. -/
structure Faithful (cases : List Case) (r : Run) : Prop where
  cases : r.recorded.map CaseResult.case = cases
  named : ∀ x ∈ r.recorded, ∃ s, x.verdict = .ofStage s
  total : r.total = r.recorded.length
  passed : r.passed = r.recorded.countP fun x => x.status = .pass
  failed : r.failed = r.recorded.countP fun x => x.status = .fail
  status : r.status = .pass ↔ ∀ x ∈ r.recorded, x.status = .pass

/-- A run that has a result is faithful to the cases it was given. -/
theorem Conducts.faithful {ω : Type} {e : Executor ω} {id : Text} {cases : List Case}
    (hs : e.Steady) (he : e.Replies) {workers : Nat} {start : ZonedInstant} {w₀ w : ω}
    {done : List (Nat × Option CaseResult)} {r : Run}
    (h : Conducts e workers id start cases w₀ done (.ok r) w) : Faithful cases r := by
  have hwhole := h.whole hs he.result
  obtain ⟨l, _, hl, rfl⟩ := h.completed_of_ok hs he.result
  have htally := tallied_completed id hl (inParallel workers cases) start
  generalize hr : completed id cases.length (inParallel workers cases) start l = r at hwhole
  have htally : Tallied cases.length r := hr ▸ htally.close _
  have hlength : cases.length = r.recorded.length := hwhole.executed.length_eq
  have hgiven : ∀ i (hi : i < cases.length) (hi' : i < r.recorded.length),
      ∃ v, (e.carryOut id cases[i] v).1 = some r.recorded[i] := by
    intro i hi hi'
    obtain ⟨v, hv⟩ := hwhole.executed.get hi hi'
    exact ⟨v, hv.symm⟩
  refine ⟨?_, ?_, by rw [hwhole.total, hlength], ?_, ?_, ?_⟩
  · refine List.ext_getElem (by rw [List.length_map, hlength]) fun i hi hi' => ?_
    obtain ⟨v, hv⟩ := hgiven i hi' (by omega)
    rw [List.getElem_map]
    exact he.case id _ v _ hv
  · intro x hx
    obtain ⟨i, hi, rfl⟩ := List.mem_iff_getElem.mp hx
    obtain ⟨v, hv⟩ := hgiven i (by omega) hi
    exact he.verdict id _ v _ hv
  · rw [htally.passed, hwhole.results, List.countP_map]
    refine congrArg _ (List.countP_congr fun x _ => ?_)
    simp [slotPassed, x.verdict.passed_iff, x.status_eq_pass_iff]
  · rw [htally.failed, hwhole.results, List.countP_map]
    refine congrArg _ (List.countP_congr fun x _ => ?_)
    simp [slotFailed, ← x.verdict.passed_iff, x.status_eq_fail_iff]
  · -- A closed run has passed or failed, so it has passed if no result failed.
    have hclosed : r.status = .fail ↔ ¬ r.status = .pass := by
      rw [← hr]
      exact status_close_eq_fail_iff _ _
    rw [← not_iff_not, ← hclosed, hwhole.status]
    simp [CaseResult.status_eq_pass_iff]

theorem failures_eq (r : Run) : r.failures = r.recorded.filter fun x => x.status = .fail := by
  rw [Session.failures_eq_filter]
  refine List.filter_congr fun x _ => ?_
  simp [x.status_eq_fail_iff]

namespace Faithful

variable {cases : List Case} {r : Run} (h : Faithful cases r)
include h

/-- The failing cases stand in the order of selection. -/
theorem failedCases_sublist : r.failedCases.Sublist cases := by
  rw [← h.cases]
  exact List.filter_sublist.map _

theorem failedCases_eq_nil_iff : r.failedCases = [] ↔ r.status = .pass := by
  rw [h.status, failedCases, List.map_eq_nil_iff, failures, List.filter_eq_nil_iff]
  simp [CaseResult.status_eq_pass_iff, Verdict.passed_iff]

end Faithful

end Run

/-! ### The summary -/

namespace Report

/-- Both streams take whatever is written to them. -/
def Streams.Open (s : Streams) : Prop := s.out.room = none ∧ s.err.room = none

/-- Texts as lines, one below the other. -/
def asLines (ls : List Text) : Text := ls.flatMap fun l => l ++ Text.ofString "\n"

/-- The stream after some text that it takes. -/
def Stream.extended (s : Stream) (t : Text) : Stream := { s with written := s.written ++ t }

theorem Stream.putLines_of_open {s : Stream} (h : s.room = none) (ls : List Text) :
    s.putLines ls = (s.extended (asLines ls), none) := by
  induction ls generalizing s with
  | nil => simp [putLines, asLines, Stream.extended]
  | cons l ls ih =>
    have hput : s.put (l ++ "\n") = (s.extended (l ++ "\n"), none) := by
      simp [put, h, Stream.extended]
    have hopen : (s.extended (l ++ "\n")).room = none := h
    simp only [putLines, hput, ih hopen]
    simp [Stream.extended, asLines]

/-- A run without failing cases leaves the error stream alone, any other the output stream. -/
theorem summary_stream (r : Run) (s : Streams) :
    if r.failedCases = [] then (summary r s).1.err = s.err else (summary r s).1.out = s.out := by
  unfold summary
  cases r.failedCases <;> rfl

/-- The heading, and below it the sources of the failing cases in order. -/
def failedLines (r : Run) : List Text := failedHeading :: r.failedCases.map Case.source

/-- What is written to streams that take everything. -/
theorem summary_of_open (r : Run) {s : Streams} (h : s.Open) :
    summary r s =
      (if r.failedCases = [] then { s with out := s.out.extended (asLines [allPassed]) }
        else { s with err := s.err.extended (asLines (failedLines r)) }, none) := by
  unfold summary failedLines
  cases r.failedCases with
  | nil => simp only [Stream.putLines_of_open h.1, if_true]
  | cons c cs => simp only [Stream.putLines_of_open h.2, reduceCtorEq, if_false]

end Report

/-! ### The report -/

/-- The entry says what is recorded of the stage. -/
structure StageEntry.Restates (e : StageEntry) (x : StageRecord) : Prop where
  stage : e.stage = x.stage.name
  command : e.command = x.command
  exitCode : e.exitCode = x.exitCode
  timedOut : e.timedOut = x.timedOut
  error : e.error = (x.cause.map Failure.message).getD []
  duration : e.duration = x.duration

theorem StageEntry.restates_ofRecord (x : StageRecord) : (ofRecord x).Restates x where
  stage := rfl
  command := rfl
  exitCode := rfl
  timedOut := rfl
  error := by cases hc : x.cause <;> simp [ofRecord, hc]
  duration := rfl

/-- The entry says what is recorded of the case, with an entry for each stage in order. It
    names a failed stage if and only if it tells of a failure. -/
structure CaseEntry.Restates (e : CaseEntry) (x : CaseResult) : Prop where
  source : e.source = x.case.source
  name : e.name = x.case.name
  status : e.status = if x.verdict = .pass then .pass else .fail
  failedStage : e.failedStage ≠ [] ↔ e.status = .fail
  named : ∀ s, x.verdict = .failedAt s → e.failedStage = s.name
  duration : e.duration = x.duration
  stages : List.Forall₂ StageEntry.Restates e.stages x.stages

theorem CaseEntry.restates_ofResult {x : CaseResult} (h : ∃ s, x.verdict = .ofStage s) :
    (ofResult x).Restates x where
  source := rfl
  name := rfl
  status := by
    show x.status = _
    split
    · rename_i hpass
      exact x.status_eq_pass_iff.mpr hpass
    · rename_i hfail
      exact x.status_eq_fail_iff.mpr hfail
  failedStage := by
    obtain ⟨s, hs⟩ := h
    show x.verdict.failedStage ≠ [] ↔ x.status = .fail
    rw [x.status_eq_fail_iff, hs]
    exact Verdict.failedStage_ofStage s
  named := by
    intro s hs
    show x.verdict.failedStage = s.name
    rw [hs]
    rfl
  duration := rfl
  stages := by
    show List.Forall₂ _ (x.stages.map _) x.stages
    rw [List.forall₂_map_left_iff, List.forall₂_same]
    exact fun y _ => StageEntry.restates_ofRecord y

/-- The report has one entry for each case, in order, and its totals count the entries. -/
structure Report.Restates (p : Report) (cases : List Case) (r : Run) : Prop where
  cases : List.Forall₂ (fun e c => e.source = c.source ∧ e.name = c.name) p.cases cases
  results : List.Forall₂ CaseEntry.Restates p.cases r.recorded
  total : p.total = p.cases.length
  passed : p.passed = p.cases.countP fun e => e.status = .pass
  failed : p.failed = p.cases.countP fun e => e.status = .fail
  status : p.status = r.status

theorem Run.Faithful.restates {cases : List Case} {r : Run} (h : r.Faithful cases) :
    (Report.ofRun r).Restates cases r where
  cases := by
    show List.Forall₂ _ (r.recorded.map _) cases
    rw [← h.cases, List.forall₂_map_left_iff, List.forall₂_map_right_iff, List.forall₂_same]
    exact fun x _ => ⟨rfl, rfl⟩
  results := by
    show List.Forall₂ _ (r.recorded.map _) r.recorded
    rw [List.forall₂_map_left_iff, List.forall₂_same]
    exact fun x hx => CaseEntry.restates_ofResult (h.named x hx)
  total := by
    show r.total = (r.recorded.map _).length
    rw [List.length_map, h.total]
  passed := by
    show r.passed = ((r.recorded.map _).countP _ : Nat)
    rw [List.countP_map, h.passed]
    rfl
  failed := by
    show r.failed = ((r.recorded.map _).countP _ : Nat)
    rw [List.countP_map, h.failed]
    rfl
  status := rfl

/-! ### The text -/

/-- The lines tell that the case failed and at which stage, and maybe why. -/
def Run.Mentions (lines : Text) (x : CaseResult) : Prop :=
  ∃ (stage : Stage) (detail : Text), x.verdict = .failedAt stage ∧
    (detail = [] ∨ ∃ why : Text, detail = "│       └── Error: " ++ why ++ "\n") ∧
    lines = "├── Test: " ++ x.case.source ++ " (" ++ x.duration.tenths ++ ") [failed at " ++
      stage.name ++ "]\n" ++ detail

theorem Run.mentions_failureText {x : CaseResult} (h : x.verdict ≠ .pass) :
    Mentions (failureText x) x := by
  cases hv : x.verdict with
  | pass => exact absurd hv h
  | failedAt stage =>
    refine ⟨stage, (x.failedStage?.elim ([] : Text) fun y =>
      if y.detail = [] then [] else "│       └── Error: " ++ y.detail ++ "\n"), hv, ?_, ?_⟩
    · cases x.failedStage? with
      | none => exact .inl rfl
      | some y =>
        by_cases hd : y.detail = []
        · simp [hd]
        · exact .inr ⟨y.detail, by simp [hd]⟩
    · have hjoin : Text.ofString ") [failed at " = Text.ofString ") [" ++ "failed at " := by decide
      unfold failureText
      rw [hv]
      cases x.failedStage? <;> simp [Verdict.text, hjoin]

/-- The lines of a run's text before those on failing cases. -/
def Run.textTotals (r : Run) : Text :=
  "Test Run Results (" ++ r.wallClock.tenths ++ "):\n" ++
  "Total: " ++ Numeral.ofInt r.total ++ ", Passed: " ++ Numeral.ofInt r.passed ++ ", Failed: " ++
    Numeral.ofInt r.failed ++ "\n"

/-- Below its totals a text mentions the failing results one after the other. -/
theorem Run.text_mentions (r : Run) :
    ∃ blocks, r.text = r.textTotals ++ blocks.flatten ∧
      List.Forall₂ Mentions blocks (r.recorded.filter fun x => x.status = .fail) := by
  refine ⟨r.failures.map failureText, by rw [← List.flatMap_def]; rfl, ?_⟩
  rw [← r.failures_eq, List.forall₂_map_left_iff, List.forall₂_same]
  intro x hx
  have hfail : x.status = .fail := by
    rw [r.failures_eq] at hx
    simpa using (List.mem_filter.mp hx).2
  exact mentions_failureText (x.status_eq_fail_iff.mp hfail)

/-! ### The table -/

namespace Report

/-- The row shows the result, with its stage if it failed, marked as passed or failed. -/
structure Shows (row : List Text) (x : CaseResult) : Prop where
  source : row[0]? = some x.case.source
  stage : row[2]? = some (if x.verdict = .pass then Text.ofString "-" else x.verdict.failedStage)
  mark : row[3]? = some (if x.verdict = .pass then Text.ofString "✓ pass" else "✗ fail")

/-- The row is marked as failed. -/
def markedFailed (row : List Text) : Bool := row[3]? = some (Text.ofString "✗ fail")

theorem shows_cellsOf (x : CaseResult) : Shows (cellsOf x) x where
  source := rfl
  stage := by
    unfold cellsOf CaseResult.failedStage?
    cases hv : x.verdict with
    | pass => simp [Verdict.passed]
    | failedAt s =>
      -- The record of the failed stage is of the stage of the verdict.
      cases x.stages.getLast? with
      | none => simp [Verdict.passed]
      | some last =>
        by_cases hlast : last.stage = s <;> simp [hlast, Verdict.passed, Verdict.failedStage]
  mark := by
    show some (markedStatus x.status) = _
    split
    · rename_i hpass
      rw [x.status_eq_pass_iff.mpr hpass, markedStatus]
    · rename_i hfail
      rw [x.status_eq_fail_iff.mpr hfail, markedStatus]
      simp

theorem markedFailed_cellsOf (x : CaseResult) :
    markedFailed (cellsOf x) = true ↔ x.status = .fail := by
  have hmarks : Text.ofString "✓ pass" ≠ Text.ofString "✗ fail" := by decide
  rw [x.status_eq_fail_iff, markedFailed, (shows_cellsOf x).mark]
  by_cases hpass : x.verdict = .pass <;> simp [hpass, hmarks]

/-- The rows that are marked as failed are those of the failing cases, in order. -/
theorem tableRows_failed (r : Run) :
    ((tableRows r).filter markedFailed).map (fun row => row[0]?) =
      r.failedCases.map fun c => some c.source := by
  rw [tableRows, List.filter_map, List.map_map, Run.failedCases, r.failures_eq, List.map_map]
  have hsame : r.recorded.filter (markedFailed ∘ cellsOf) =
      r.recorded.filter fun x => x.status = .fail := by
    refine List.filter_congr fun x _ => ?_
    rw [Bool.eq_iff_iff, decide_eq_true_eq]
    exact markedFailed_cellsOf x
  rw [hsame]
  exact List.map_congr_left fun x _ => (shows_cellsOf x).source

end Report

/-! ### Agreement -/

/-- In whatever order the workers go through the cases, a run with a result holds a result for
    each case in the order of selection, and its views agree on them.

    - It has passed exactly if it has no failing case.
    - The summary of a run that passed is one line on the output stream, any other is the
      heading and the sources of the failing cases on the error stream. The other stream is
      left alone.
    - The report restates the cases, their stages, the totals and the status.
    - The text and the rows of the table name the failing cases, and no others, as failed. -/
theorem Run.views_agree {ω : Type} {e : Executor ω} (hs : e.Steady) (he : e.Replies) {id : Text}
    {cases : List Case} {workers : Nat} {start : ZonedInstant} {w₀ w : ω}
    {done : List (Nat × Option CaseResult)} {r : Run}
    (h : Conducts e workers id start cases w₀ done (.ok r) w) :
    (r.recorded.map CaseResult.case = cases ∧
      r.failedCases = (r.recorded.filter fun x => x.status = .fail).map CaseResult.case ∧
      r.failedCases.Sublist cases) ∧
    (r.failedCases = [] ↔ r.status = .pass) ∧
    (∀ s : Streams,
      (if r.status = .pass then (summary r s).1.err = s.err else (summary r s).1.out = s.out) ∧
      (s.Open → summary r s =
        (if r.status = .pass then { s with out := s.out.extended (asLines [allPassed]) }
          else { s with err := s.err.extended (asLines (failedLines r)) }, none))) ∧
    (Report.ofRun r).Restates cases r ∧
    (∃ blocks, r.text = r.textTotals ++ blocks.flatten ∧
      List.Forall₂ Mentions blocks (r.recorded.filter fun x => x.status = .fail)) ∧
    List.Forall₂ Shows (tableRows r) r.recorded ∧
    ((tableRows r).filter markedFailed).map (fun row => row[0]?) =
      r.failedCases.map fun c => some c.source := by
  have hfaithful := h.faithful hs he
  have hpass := hfaithful.failedCases_eq_nil_iff
  refine ⟨⟨hfaithful.cases, congrArg _ r.failures_eq, hfaithful.failedCases_sublist⟩, hpass,
    fun s => ⟨?_, fun ho => ?_⟩, hfaithful.restates, r.text_mentions, ?_, tableRows_failed r⟩
  · simpa only [hpass] using summary_stream r s
  · simpa only [hpass] using summary_of_open r ho
  · rw [tableRows, List.forall₂_map_left_iff, List.forall₂_same]
    exact fun x _ => shows_cellsOf x

/-- Three cases by two workers, of which the second does not link. -/
theorem Run.views_agree_unlinked :
    let e := Rehearsal.executor (fun c =>
      some { case := c, verdict := .ofStage (if c.source = [98] then .link else ⟨[]⟩) }) none
    let cases : List Case := [⟨[97], [97]⟩, ⟨[98], [98]⟩, ⟨[99], [99]⟩]
    e.Steady ∧ e.Replies ∧
    ∃ r, (conduct e 2 [114] ⟨Instant.yearOne, 0⟩ cases {}).1 = .ok r ∧
      r.failedCases = [⟨[98], [98]⟩] ∧
      summary r {} = ({ err := { written := "Failed tests:\nb\n" } }, none) ∧
      (Report.ofRun r).Restates cases r ∧
      ((tableRows r).filter markedFailed).map (fun row => row[0]?) = [some [98]] := by
  intro e cases
  have hs : e.Steady := rehearsal_steady _ _
  have he : e.Replies := by
    refine ⟨fun _ _ _ => rfl, ?_, ?_⟩
    · rintro id c w x hx
      obtain rfl := Option.some.inj hx
      rfl
    · rintro id c w x hx
      obtain rfl := Option.some.inj hx
      exact ⟨_, rfl⟩
  obtain ⟨done, h⟩ := conduct_conducts hs 2 [114] ⟨Instant.yearOne, 0⟩ cases {}
  have hfailed : (conduct e 2 [114] ⟨Instant.yearOne, 0⟩ cases {}).1.toOption.map failedCases =
      some [⟨[98], [98]⟩] := by decide +kernel
  cases hr : (conduct e 2 [114] ⟨Instant.yearOne, 0⟩ cases {}).1 with
  | error f =>
    rw [hr] at hfailed
    simp [Except.toOption] at hfailed
  | ok r =>
    rw [hr] at h hfailed
    have hfailed : r.failedCases = [⟨[98], [98]⟩] := Option.some.inj hfailed
    obtain ⟨_, hpass, hsummary, hreport, _, _, hrows⟩ := views_agree hs he h
    have hstatus : r.status ≠ .pass := by
      rw [ne_eq, ← hpass, hfailed]
      simp
    refine ⟨hs, he, r, rfl, hfailed, ?_, hreport, by rw [hrows, hfailed]; rfl⟩
    rw [(hsummary {}).2 ⟨rfl, rfl⟩, if_neg hstatus, failedLines, hfailed]
    exact Prod.ext (by decide) rfl

end Gauntlet
