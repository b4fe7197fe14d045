import Gauntlet.Proofs.Verdict
import Mathlib.Logic.Relation

/-! # What the exit code says about a failure

  A failure is searched for one of the harness by going inside: to the cause of a failure that
  has one, and to each of several joined failures. `Unwraps` is one step of this way, and what
  the search finds is what a chain of steps leads to (`reaches_iff`).

  So the exit code tells whether a failure of the harness can be reached (`exitCode_by_reach`).
  It does not show in which order failures were joined at any depth (`Reordered.reaches`), and
  it is not changed by a message in front or by failures of another kind beside.
-/

namespace Gauntlet.Failure

open Relation (ReflTransGen)

/-! ### Going inside -/

/-- The second failure is directly inside the first one. Nothing is inside a failure of which
    only the text is shown. -/
inductive Unwraps : Failure → Failure → Prop where
  | wrap (message : Text) (f : Failure) : Unwraps (.wrap message (some f)) f
  | join {causes : List Failure} {f : Failure} (h : f ∈ causes) : Unwraps (.join causes) f
  | runtime (phase : Text) (f : Failure) : Unwraps (.runtime phase (some f)) f
  | command (command : Text) (exitCode : Int) (timedOut : Bool) (duration : Duration)
      (f : Failure) : Unwraps (.command command exitCode timedOut duration (some f)) f

theorem Unwraps.sizeOf_lt {f g : Failure} (h : Unwraps f g) : sizeOf g < sizeOf f := by
  cases h with
  | join h =>
    have hmem := List.sizeOf_lt_of_mem h
    simp only [join.sizeOf_spec]
    omega
  | wrap message => simp; omega
  | runtime phase => simp; omega
  | command command exitCode timedOut duration => simp; omega

theorem reachesCause_iff (p : Failure → Bool) (cause : Option Failure) :
    reachesCause p cause = true ↔ ∃ g, cause = some g ∧ g.reaches p = true := by
  cases cause <;> simp [reachesCause]

/-- What is directly inside is what a failure unwraps to, or one of several that it joins. -/
theorem unwraps_iff {f g : Failure} :
    Unwraps f g ↔ f.unwrap = some g ∨ ∃ causes, f = .join causes ∧ g ∈ causes := by
  constructor
  · rintro (⟨message⟩ | hmem | ⟨phase⟩ | ⟨command, exitCode, timedOut, duration⟩)
    · exact Or.inl rfl
    · exact Or.inr ⟨_, rfl, hmem⟩
    · exact Or.inl rfl
    · exact Or.inl rfl
  · rintro (hunwrap | ⟨causes, rfl, hmem⟩)
    · cases f with
      | wrap message cause =>
        obtain rfl : cause = some g := hunwrap
        exact .wrap message g
      | runtime phase cause =>
        obtain rfl : cause = some g := hunwrap
        exact .runtime phase g
      | command command exitCode timedOut duration cause =>
        obtain rfl : cause = some g := hunwrap
        exact .command command exitCode timedOut duration g
      | _ => simp [unwrap] at hunwrap
    · exact .join hmem

/-- The search looks at the failure itself and then at what is directly inside. -/
theorem reaches_iff_step (p : Failure → Bool) (f : Failure) :
    f.reaches p = true ↔ p f = true ∨ ∃ g, Unwraps f g ∧ g.reaches p = true := by
  cases f <;> simp [reaches, unwraps_iff, unwrap, reachesCause_iff, reachesAny_eq_any]

/-- What the search finds is what a chain of steps inside leads to. -/
theorem reaches_iff (p : Failure → Bool) (f : Failure) :
    f.reaches p = true ↔ ∃ g, ReflTransGen Unwraps f g ∧ p g = true := by
  constructor
  · -- What is inside is smaller, so the search comes to an end.
    induction hsize : sizeOf f using Nat.strong_induction_on generalizing f with
    | _ size ih =>
      intro hreaches
      rcases (reaches_iff_step p f).mp hreaches with hself | ⟨g, hstep, hinside⟩
      · exact ⟨f, .refl, hself⟩
      · have hlt : sizeOf g < size := hsize ▸ hstep.sizeOf_lt
        obtain ⟨found, hchain, hfound⟩ := ih (sizeOf g) hlt g rfl hinside
        exact ⟨found, .head hstep hchain, hfound⟩
  · rintro ⟨g, hchain, hfound⟩
    induction hchain using ReflTransGen.head_induction_on with
    | refl => exact (reaches_iff_step p g).mpr (Or.inl hfound)
    | head hstep _ ih => exact (reaches_iff_step p _).mpr (Or.inr ⟨_, hstep, ih⟩)

/-- A failure of the harness can be reached by going inside. -/
def ReachesRuntime (f : Failure) : Prop :=
  ∃ phase cause, ReflTransGen Unwraps f (.runtime phase cause)

theorem reaches_isRuntime_iff (f : Failure) : f.reaches isRuntime = true ↔ f.ReachesRuntime := by
  rw [reaches_iff]
  constructor
  · rintro ⟨g, hchain, hfound⟩
    cases g with
    | runtime phase cause => exact ⟨phase, cause, hchain⟩
    | _ => simp [isRuntime] at hfound
  · rintro ⟨phase, cause, hchain⟩
    exact ⟨_, hchain, rfl⟩

theorem reaches_isRuntime_eq_false_iff (f : Failure) :
    f.reaches isRuntime = false ↔ ¬ f.ReachesRuntime := by
  rw [← reaches_isRuntime_iff, Bool.not_eq_true]

/-! ### The order of joined failures -/

/-- The failures differ only in the order in which failures inside them are joined, at any
    depth. -/
inductive Reordered : Failure → Failure → Prop where
  | refl (f : Failure) : Reordered f f
  | trans {f g k : Failure} (h : Reordered f g) (h' : Reordered g k) : Reordered f k
  | perm {causes causes' : List Failure} (h : causes.Perm causes') :
      Reordered (.join causes) (.join causes')
  | branch (before after : List Failure) {f g : Failure} (h : Reordered f g) :
      Reordered (.join (before ++ f :: after)) (.join (before ++ g :: after))
  | wrap (message : Text) {f g : Failure} (h : Reordered f g) :
      Reordered (.wrap message (some f)) (.wrap message (some g))
  | shown (message : Text) {f g : Failure} (h : Reordered f g) :
      Reordered (.shown message (some f)) (.shown message (some g))
  | runtime (phase : Text) {f g : Failure} (h : Reordered f g) :
      Reordered (.runtime phase (some f)) (.runtime phase (some g))
  | command (command : Text) (exitCode : Int) (timedOut : Bool) (duration : Duration)
      {f g : Failure} (h : Reordered f g) :
      Reordered (.command command exitCode timedOut duration (some f))
        (.command command exitCode timedOut duration (some g))

/-- The order does not matter to the search. -/
theorem Reordered.reaches {f g : Failure} (h : Reordered f g) :
    f.reaches isRuntime = g.reaches isRuntime := by
  induction h with
  | refl f => rfl
  | trans _ _ ih ih' => exact ih.trans ih'
  | perm hperm => simp only [Failure.reaches, isRuntime, reachesAny_eq_any, hperm.any_eq]
  | branch before after _ ih => simp [Failure.reaches, isRuntime, reachesAny_eq_any, ih]
  | wrap message _ ih => simpa [Failure.reaches, isRuntime, reachesCause] using ih
  | shown message _ _ => rfl
  | runtime phase _ _ => rfl
  | command c code timedOut duration _ ih =>
    simpa [Failure.reaches, isRuntime, reachesCause] using ih

/-! ### Failures that may be missing -/

/-- Missing failures are left out of a join, so what is joined to a failure stands around it. -/
theorem joined?_around {f : Failure} {before after : List (Option Failure)}
    (h : ∀ g, some g ∈ before ++ after → ¬ g.ReachesRuntime) :
    ∃ g, joined? (before ++ some f :: after) = some g ∧ Around f g := by
  have hpresent : (before ++ some f :: after).filterMap id =
      before.filterMap id ++ f :: after.filterMap id := by simp
  refine ⟨.join (before.filterMap id ++ f :: after.filterMap id), ?_, ?_⟩
  · unfold joined?
    rw [hpresent]
    split
    · rename_i hnil
      simp at hnil
    · rfl
  · apply Around.join _ _ Around.itself
    intro g hg
    rw [← List.filterMap_append, List.mem_filterMap] at hg
    obtain ⟨slot, hslot, rfl⟩ := hg
    exact (reaches_isRuntime_eq_false_iff g).mpr (h g hslot)

/-- The exit code is 0 for no failure, 2 if a failure of the harness can be reached, and 1 for
    any other failure.

    - Nothing is reached through a failure of which only the text is shown.
    - The order in which failures are joined, at any depth, does not matter.
    - A message in front of a failure does not change its exit code, and neither do failures
      that are joined to it, before or after, if no failure of the harness can be reached from
      them. -/
theorem exitCode_by_reach :
    (∀ e : Option Failure,
      (exitCode e = 0 ↔ e = none) ∧
      (exitCode e = 2 ↔ ∃ f, e = some f ∧ f.ReachesRuntime) ∧
      (exitCode e = 1 ↔ ∃ f, e = some f ∧ ¬ f.ReachesRuntime)) ∧
    (∀ message cause, exitCode (some (.shown message cause)) = 1) ∧
    (∀ f g : Failure, Reordered f g → exitCode (some f) = exitCode (some g)) ∧
    (∀ message f, exitCode (some (.wrap message (some f))) = exitCode (some f)) ∧
    ∀ (f : Failure) (before after : List (Option Failure)),
      (∀ g, some g ∈ before ++ after → ¬ g.ReachesRuntime) →
      exitCode (joined? (before ++ some f :: after)) = exitCode (some f) := by
  refine ⟨?_, ?_, ?_, ?_, ?_⟩
  · intro e
    cases e with
    | none => simp [exitCode]
    | some f =>
      by_cases hreach : f.ReachesRuntime
      · have hfound := (reaches_isRuntime_iff f).mpr hreach
        simp [exitCode, hfound, hreach]
      · have hfound := (reaches_isRuntime_eq_false_iff f).mpr hreach
        simp [exitCode, hfound, hreach]
  · intro message cause
    simp [exitCode, reaches, isRuntime]
  · intro f g hreordered
    simp only [exitCode, hreordered.reaches]
  · intro message f
    exact exitCode_around (.wrap message .itself)
  · intro f before after hothers
    obtain ⟨g, hjoined, haround⟩ := joined?_around hothers
    rw [hjoined, exitCode_around haround]

namespace Sample

/-- A failure of the harness that is only shown. -/
def hidden : Failure := .shown "earlier" (some (.runtime "build" none))

/-- A failure of the harness inside a command. -/
def buried : Failure :=
  .wrap "late" (some (.command "make" 1 false Duration.zero (some (.runtime "setup" none))))

/-- Failing cases between the two. -/
def mixed : List Failure := [hidden, .caseFailure [] 3, buried]

theorem exitCode_by_reach_mixed :
    (buried.ReachesRuntime ∧ exitCode (some (.join mixed)) = 2) ∧
    (Reordered (.join mixed) (.join mixed.reverse) ∧
      exitCode (some (.join mixed.reverse)) = 2) ∧
    (¬ hidden.ReachesRuntime ∧
      exitCode (joined? [none, some hidden, some (.caseFailure [] 3), none]) = 1) := by
  obtain ⟨hcode, hshown, horder, _, hjoin⟩ := exitCode_by_reach
  have hchain : ReflTransGen Unwraps buried (.runtime "setup" none) :=
    .head (.wrap "late" _) (.single (.command "make" 1 false Duration.zero _))
  have hmixed : exitCode (some (.join mixed)) = 2 :=
    (hcode _).2.1.mpr ⟨_, rfl, "setup", none, .head (.join (by simp [mixed])) hchain⟩
  have hreordered : Reordered (.join mixed) (.join mixed.reverse) :=
    .perm (List.reverse_perm mixed).symm
  have hhidden : ¬ hidden.ReachesRuntime := by
    obtain ⟨f, hf, hnot⟩ := (hcode (some hidden)).2.2.mp (hshown _ _)
    exact Option.some.inj hf ▸ hnot
  refine ⟨⟨⟨_, _, hchain⟩, hmixed⟩, ⟨hreordered, ?_⟩, hhidden, ?_⟩
  · rw [← horder _ _ hreordered, hmixed]
  · rw [← exitCode_caseFailure [] 3]
    apply hjoin (.caseFailure [] 3) [none, some hidden] [none]
    intro g hg
    obtain rfl : g = hidden := by simpa using hg
    exact hhidden

end Sample

end Gauntlet.Failure
