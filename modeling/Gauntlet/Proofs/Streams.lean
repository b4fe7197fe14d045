import Gauntlet.Proofs.Restatement

/-! # Summaries on streams that fail

  A stream that has room for `n` writes takes the first `n` of the lines that it is given. If
  there are more, the next one is refused and no other is tried (`putLines_of_room`): the stream
  counts the writes that it refuses, so that one refusal is one attempt.

  What a summary consists of is told by the results of a run alone: missing results and those
  that passed have no line. So it is known for every number of writes how much of the summary
  is written and where (`summary_of_room`), and what stands on which stream when a run has been
  printed with its table (`Printed`).
-/

namespace Gauntlet

open Report

/-! ### Lines for a stream with little room -/

namespace Report

/-- The stream after it was given some lines and had room for a number of them. -/
def Stream.filled (s : Stream) (n : Nat) (ls : List Text) : Stream :=
  { s with
    written := s.written ++ asLines (ls.take n)
    room := some (n - ls.length)
    refused := s.refused + if n < ls.length then 1 else 0 }

/-- The first line for which there is no room is refused, and it is the last one to be tried. -/
theorem Stream.putLines_of_room {s : Stream} {n : Nat} (h : s.room = some n) (ls : List Text) :
    s.putLines ls = (s.filled n ls, if n < ls.length then some s.refusal else none) := by
  induction ls generalizing s n with
  | nil => simp [putLines, filled, asLines, ← h]
  | cons l ls ih =>
    cases n with
    | zero =>
      have hput : s.put (l ++ "\n") = ({ s with refused := s.refused + 1 }, some s.refusal) := by
        simp [put, h]
      simp [putLines, hput, filled, asLines, ← h]
    | succ n =>
      -- The line is taken, and the others meet a stream with room for one line less.
      let taken : Stream := { s with written := s.written ++ (l ++ "\n"), room := some n }
      have hput : s.put (l ++ "\n") = (taken, none) := by simp [put, h, taken]
      have hrest : taken.filled n ls = s.filled (n + 1) (l :: ls) := by
        simp [taken, filled, asLines]
      have hrefusal : taken.refusal = s.refusal := rfl
      simp only [putLines, hput]
      rw [ih rfl, hrest, hrefusal]
      simp

/-- The writes that a stream has room for, of some that are made one after another. -/
def Stream.fitting (s : Stream) (ts : List Text) : List Text :=
  match s.room with
  | none => ts
  | some n => ts.take n

/-- What becomes of a stream by some writes, made one after another: it takes those that it has
    room for. Of the others some may be tried and are refused. -/
structure Stream.Took (s : Stream) (ts : List Text) (s' : Stream) : Prop where
  written : s'.written = s.written ++ (s.fitting ts).flatten
  room : s'.room = s.room.map (· - ts.length)
  refused : s.refused ≤ s'.refused ∧ s'.refused + (s.fitting ts).length ≤ s.refused + ts.length
  fault : s'.fault = s.fault

namespace Stream.Took

theorem nil (s : Stream) : s.Took [] s := by
  have hfitting : s.fitting [] = [] := by
    unfold fitting
    cases s.room <;> simp
  exact ⟨by simp [hfitting], by simp, by simp [hfitting], rfl⟩

theorem append {s s' s'' : Stream} {ts us : List Text} (h : s.Took ts s') (h' : s'.Took us s'') :
    s.Took (ts ++ us) s'' := by
  -- There is room for `us` where there was room for more than `ts`.
  have hfitting : s.fitting (ts ++ us) = s.fitting ts ++ s'.fitting us := by
    unfold fitting
    rw [h.room]
    cases s.room with
    | none => rfl
    | some n => exact List.take_append
  refine ⟨?_, ?_, ?_, h'.fault.trans h.fault⟩
  · rw [h'.written, h.written, hfitting, List.flatten_append, List.append_assoc]
  · rw [h'.room, h.room, List.length_append]
    cases s.room with
    | none => rfl
    | some n => simp [Nat.sub_sub]
  · have hfirst := h.refused
    have hsecond := h'.refused
    rw [hfitting, List.length_append, List.length_append]
    omega

theorem put (s : Stream) (t : Text) : s.Took [t] (s.put t).1 := by
  rcases hroom : s.room with _ | _ | n
  all_goals
    refine ⟨?_, ?_, ?_, ?_⟩ <;> simp [Stream.put, fitting, hroom]

/-- Lines are written until one is refused, and none after it would be taken. -/
theorem putLines (s : Stream) (ls : List Text) :
    s.Took (ls.map fun l => l ++ Text.ofString "\n") (s.putLines ls).1 := by
  rcases hroom : s.room with _ | n
  · rw [putLines_of_open hroom]
    refine ⟨?_, ?_, ?_, rfl⟩ <;> simp [extended, fitting, hroom, asLines, List.flatMap]
  · -- The lines after a refused one are not tried, and there would be no room for them.
    rw [putLines_of_room hroom]
    refine ⟨?_, ?_, ?_, rfl⟩
    · simp [filled, fitting, hroom, asLines, List.flatMap, List.map_take]
    · simp [filled, hroom]
    · simp only [filled, fitting, hroom, List.length_take, List.length_map]
      split <;> omega

end Stream.Took

end Report

/-! ### The lines of a summary -/

namespace Run

/-- The source of a result that failed; missing results and those that passed have none. -/
def failingSource? : Option CaseResult → Option Text
  | none => none
  | some x => if x.verdict.passed then none else some x.case.source

/-- The sources of the failing cases in order. -/
def failingSources (r : Run) : List Text := r.results.filterMap failingSource?

theorem map_source_failedCases (r : Run) : r.failedCases.map Case.source = r.failingSources := by
  unfold failedCases failures recorded failingSources
  induction r.results with
  | nil => rfl
  | cons slot slots ih =>
    cases slot with
    | none => simpa [List.filterMap_cons, failingSource?] using ih
    | some x =>
      cases hpassed : x.verdict.passed <;>
        simpa [List.filterMap_cons, failingSource?, hpassed] using ih

/-- A recorded result failed. -/
def HasFailure (r : Run) : Prop := ∃ x, some x ∈ r.results ∧ x.verdict.passed = false

theorem failedCases_ne_nil_iff (r : Run) : r.failedCases ≠ [] ↔ r.HasFailure := by
  simp [failedCases, failures, recorded, HasFailure]

theorem failedCases_eq_nil {r : Run} (h : ¬ r.HasFailure) : r.failedCases = [] := by
  by_contra hne
  exact h (r.failedCases_ne_nil_iff.mp hne)

end Run

namespace Report

/-- On streams that take `n` writes each and then fail, a summary is cut off after `n` lines.

    - If no recorded result failed, its one line goes to the output stream. Otherwise the
      heading and the sources of the failing cases go to the error stream. The other stream is
      left as it was.
    - The first `n` lines are written. The next one, if there is one, is refused with the
      failure of that stream, which is returned, and nothing is tried after it. -/
theorem summary_of_room (r : Run) (s : Streams) (n : Nat) (hout : s.out.room = some n)
    (herr : s.err.room = some n) :
    (¬ r.HasFailure → summary r s =
      ({ s with out := s.out.filled n [allPassed] },
        if n < [allPassed].length then some s.out.refusal else none)) ∧
    (r.HasFailure → summary r s =
      ({ s with err := s.err.filled n (failedHeading :: r.failingSources) },
        if n < (failedHeading :: r.failingSources).length then some s.err.refusal else none)) := by
  constructor
  · intro hnone
    unfold summary
    rw [Run.failedCases_eq_nil hnone]
    dsimp only
    rw [Stream.putLines_of_room hout]
  · intro hsome
    obtain ⟨c, cs, hfailed⟩ := List.exists_cons_of_ne_nil (r.failedCases_ne_nil_iff.mpr hsome)
    have hlines := r.map_source_failedCases
    rw [hfailed] at hlines
    unfold summary
    rw [hfailed]
    dsimp only
    rw [hlines, Stream.putLines_of_room herr]

/-- A failing case, a result that is missing, a case that passed and another failing case, on
    streams that take two writes and then fail, each in its own way. -/
theorem summary_of_room_halfway :
    let r : Run := { results := [
      some { case := ⟨"a", "a"⟩, verdict := .failedAt .link }, none,
      some { case := ⟨"b", "b"⟩ }, some { case := ⟨"c", "c"⟩, verdict := .failedAt .execute }] }
    let s : Streams := {
      out := { room := some 2, fault := "broken pipe" }
      err := { room := some 2, fault := "no space left on device" } }
    (s.out.room = some 2 ∧ s.err.room = some 2 ∧ r.HasFailure) ∧
    summary r s = ({ s with err := { s.err with
        written := "Failed tests:\na\n", room := some 0, refused := 1 } },
      some (.plain "no space left on device")) := by
  intro r s
  have hsome : r.HasFailure := ⟨{ case := ⟨"a", "a"⟩, verdict := .failedAt .link }, by simp [r], rfl⟩
  refine ⟨⟨rfl, rfl, hsome⟩, ?_⟩
  rw [(summary_of_room r s 2 rfl rfl).2 hsome]
  exact Prod.ext (by decide) rfl

/-! ### What is printed of a run -/

/-- The writes of a table, if one is wanted. -/
def tableWrites (wanted : Bool) (r : Run) : List Text :=
  if wanted then [Text.intercalate "\n" (tableLines r), Text.ofString "\n"] else []

/-- A run has been printed. If no recorded result failed, a line on the output stream says so,
    below the table if there is one. Otherwise the error stream has a heading and below it the
    sources of the failing cases. A stream that is given nothing is left as it was. -/
structure Printed (tabled : Bool) (r : Run) (s s' : Streams) : Prop where
  passed : ¬ r.HasFailure →
    s.out.Took (tableWrites tabled r ++ [Text.ofString "All tests passed :)\n"]) s'.out ∧ s'.err = s.err
  failed : r.HasFailure →
    s.out.Took (tableWrites tabled r) s'.out ∧
    s.err.Took ("Failed tests:\n" :: r.failingSources.map fun l => l ++ Text.ofString "\n") s'.err

end Report

end Gauntlet
