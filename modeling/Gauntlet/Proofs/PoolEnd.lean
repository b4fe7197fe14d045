import Gauntlet.Proofs.Conduct
import Mathlib.Logic.Relation

/-! # The end of the worker pool

  The pool never gets stuck and always ends, in every schedule and whenever the run is
  cancelled.

  - `Finished` is the state in which everybody has come to an end: the dispatcher, the
    workers, the closer and the collector.
  - `Ledger.finished_of_stuck`, `State.Finished.stuck`: nothing can be done exactly if the
    pool is finished. A full queue is always relieved: outcomes are collected until
    the last worker has left, and jobs are taken or, in a cancelled run, given up.
  - `Advances` is a step of a schedule. It takes one away from the steps that are left, so
    no schedule goes on for ever, and every schedule can be followed to a finished pool.
-/

namespace Gauntlet.Pool

variable {ρ ω : Type} {shape : Shape} {jobs : Jobs ρ ω}

/-! ### Finished pools -/

/-- Everybody has come to an end, and nothing is waiting to be collected. Jobs that a
    cancelled run has given up may still be in the work queue. -/
structure State.Finished (shape : Shape) (s : State ρ) : Prop where
  /-- The collector has ended. -/
  collector : s.ended = true
  /-- The closer has sealed the outcome queue. -/
  closer : s.sealed = true
  /-- The dispatcher has closed the work queue. -/
  dispatcher : s.dispatching = false
  /-- Every worker has left, so none is idle, busy or holds an outcome. -/
  workers : s.left = shape.workers ∧ s.idle = 0 ∧ s.running = [] ∧ s.holding = []
  drained : s.outcomes = []

/-- A pool in which nothing can be done is finished. -/
theorem Ledger.finished_of_stuck {done : List (Nat × ρ)} {s : State ρ} {w : ω}
    (h : Ledger shape jobs done s w) (hw : 0 < shape.workers)
    (hstuck : ∀ l, Pool.step shape jobs s w l = none) : s.Finished shape := by
  have hended : s.ended = true := by
    rw [← Bool.not_eq_false]
    intro he
    obtain ⟨l, _, hl⟩ := h.exists_candidate hw he
    rw [hstuck l] at hl
    exact absurd hl (by simp)
  obtain ⟨hsealed, houtcomes⟩ := h.finished hended
  have hleft : s.left = shape.workers := h.closed hsealed
  have hdispatching : s.dispatching = false := by
    rw [← Bool.not_eq_true]
    intro hd
    -- The workers did not wait for the dispatcher: the run is cancelled, which it can see.
    have hc : jobs.cancelled w = true := by
      refine (h.released (by omega)).resolve_left ?_
      intro hf
      exact absurd (hd.symm.trans hf.1) (by simp)
    have hclose := hstuck .closeWork
    simp [Pool.step, hd, hc] at hclose
  exact ⟨hended, hsealed, hdispatching, ⟨hleft, h.deserted hleft⟩, houtcomes⟩

/-- In a finished pool nothing can be done, whatever the world is like. -/
theorem State.Finished.stuck {s : State ρ} (h : s.Finished shape) (w : ω) (l : Label) :
    Pool.step shape jobs s w l = none := by
  obtain ⟨hended, hsealed, hdispatching, ⟨_, hidle, hrunning, hholding⟩, houtcomes⟩ := h
  cases hstep : Pool.step shape jobs s w l with
  | none => rfl
  | some after =>
    obtain ⟨s', w'⟩ := after
    exfalso
    cases moves_of_step hstep with
    | dispatch hd _ _ => simp [hdispatching] at hd
    | closeWork hd _ => simp [hdispatching] at hd
    | take i rest _ hi => omega
    | carryOut i hr => simp [hrunning] at hr
    | hand p front back hh _ => simp [hholding] at hh
    | leave hi _ => omega
    | closeOutcomes hs _ => simp [hsealed] at hs
    | collect p rest ho => simp [houtcomes] at ho
    | finish _ _ he => simp [hended] at he

/-! ### Schedules end -/

/-- One step of a schedule. Before it the surroundings may change the world, and so cancel
    the run; what is cancelled stays cancelled. -/
def Advances (shape : Shape) (jobs : Jobs ρ ω) (a b : State ρ × ω) : Prop :=
  ∃ v l, (jobs.cancelled a.2 = true → jobs.cancelled v = true) ∧ step shape jobs a.1 v l = some b

theorem remaining_lt_of_step {s s' : State ρ} {w w' : ω} {l : Label}
    (h : step shape jobs s w l = some (s', w')) : remaining shape s' < remaining shape s := by
  have := remaining_step (moves_of_step h)
  omega

theorem Advances.remaining_lt {a b : State ρ × ω} (h : Advances shape jobs a b) :
    remaining shape b.1 < remaining shape a.1 := by
  obtain ⟨v, l, _, hstep⟩ := h
  exact remaining_lt_of_step hstep

/-- No schedule goes on for ever. -/
theorem not_endless (f : Nat → State ρ × ω) : ¬ ∀ n, Advances shape jobs (f n) (f (n + 1)) := by
  intro hf
  have hcount : ∀ n, remaining shape (f n).1 + n ≤ remaining shape (f 0).1 := by
    intro n
    induction n with
    | zero => exact Nat.le_refl _
    | succ n ih =>
      have := (hf n).remaining_lt
      omega
  have := hcount (remaining shape (f 0).1 + 1)
  omega

/-- Every schedule can be followed until the pool is finished. -/
theorem Reaches.finishes {w₀ w : ω} {k : Nat} {done : List (Nat × ρ)} {s : State ρ}
    (hj : jobs.Steady) (hw : 0 < shape.workers) (h : Reaches shape jobs w₀ k done s w) :
    ∃ k' done' s' w', Reaches shape jobs w₀ k' done' s' w' ∧ k ≤ k' ∧
      Relation.ReflTransGen (Advances shape jobs) (s, w) (s', w') ∧ s'.Finished shape := by
  -- By induction on the number of steps that are left.
  induction hn : remaining shape s using Nat.strongRecOn generalizing k done s w with
  | ind n ih =>
    by_cases hstuck : ∀ l, step shape jobs s w l = none
    · exact ⟨k, done, s, w, h, Nat.le_refl k, .refl, (h.ledger hj).finished_of_stuck hw hstuck⟩
    · obtain ⟨l, hl⟩ := not_forall.mp hstuck
      obtain ⟨⟨s₁, w₁⟩, hstep⟩ := Option.ne_none_iff_exists'.mp hl
      have hlt : remaining shape s₁ < n := hn ▸ remaining_lt_of_step hstep
      obtain ⟨k', done', s', w', hreach, hk, hpath, hfinished⟩ := ih _ hlt (h.act l hstep) rfl
      exact ⟨k', done', s', w', hreach, by omega, hpath.head ⟨w, l, fun hc => hc, hstep⟩, hfinished⟩

end Gauntlet.Pool

namespace Gauntlet.Run

variable {ω : Type} {e : Executor ω}

/-- **The pool never gets stuck and always ends.** For any cases, any number of workers and
    any executor, at every moment of every schedule, cancelled or not:

    - as long as the collector has not ended, some step is enabled;
    - whatever step is taken, in whatever world, fewer steps are left after it;
    - a schedule in which nothing can be done any more is exactly one that is finished: the
      collector has ended, and with it the dispatcher, all workers and the closer;
    - every schedule leads to such an end.

    And no schedule is infinite. -/
theorem pool_always_ends (hs : e.Steady) (cases : List Case) (workers : Nat) (hw : 1 ≤ workers)
    (id : Text) (w₀ : ω) :
    (∀ k done s w,
      Pool.Reaches ⟨cases.length, workers⟩ (jobsOf e id cases) w₀ k done s w →
      (s.ended = false →
        ∃ l, (Pool.step ⟨cases.length, workers⟩ (jobsOf e id cases) s w l).isSome = true) ∧
      (∀ v l s' v', Pool.step ⟨cases.length, workers⟩ (jobsOf e id cases) s v l = some (s', v') →
        Pool.remaining ⟨cases.length, workers⟩ s' < Pool.remaining ⟨cases.length, workers⟩ s) ∧
      ((∀ l, Pool.step ⟨cases.length, workers⟩ (jobsOf e id cases) s w l = none) ↔
        s.Finished ⟨cases.length, workers⟩) ∧
      ∃ k' done' s' w',
        Pool.Reaches ⟨cases.length, workers⟩ (jobsOf e id cases) w₀ k' done' s' w' ∧ k ≤ k' ∧
        Relation.ReflTransGen (Pool.Advances ⟨cases.length, workers⟩ (jobsOf e id cases))
          (s, w) (s', w') ∧
        s'.Finished ⟨cases.length, workers⟩) ∧
    ¬ ∃ f : Nat → Pool.State (Option CaseResult) × ω, f 0 = (.initial ⟨cases.length, workers⟩, w₀) ∧
      ∀ n, Pool.Advances ⟨cases.length, workers⟩ (jobsOf e id cases) (f n) (f (n + 1)) := by
  have hj : (jobsOf e id cases).Steady := jobsOf_steady hs id cases
  have hworkers : 0 < (Pool.Shape.mk cases.length workers).workers := hw
  refine ⟨?_, ?_⟩
  · intro k done s w h
    have hledger := h.ledger hj
    refine ⟨?_, ?_, ⟨?_, ?_⟩, h.finishes hj hworkers⟩
    · intro he
      obtain ⟨l, _, hl⟩ := hledger.exists_candidate hworkers he
      exact ⟨l, hl⟩
    · intro v l s' v' hstep
      exact Pool.remaining_lt_of_step hstep
    · exact hledger.finished_of_stuck hworkers
    · intro hfinished l
      exact hfinished.stuck w l
  · rintro ⟨f, _, hf⟩
    exact Pool.not_endless f hf

/-- Three cases by two workers, the second of which cancels the run, come to an end. -/
theorem pool_always_ends_cancelled :
    let e := Rehearsal.executor (fun c => some { case := c }) (some [98])
    let cases : List Case := [⟨[97], [97]⟩, ⟨[98], [98]⟩, ⟨[99], [99]⟩]
    e.Steady ∧ ∃ k done s w,
      Pool.Reaches ⟨3, 2⟩ (jobsOf e [114] cases) {} k done s w ∧ s.Finished ⟨3, 2⟩ := by
  intro e cases
  have hs : e.Steady := rehearsal_steady _ _
  have hends := (pool_always_ends hs cases 2 (by decide) [114] {}).1 0 [] _ _ .start
  obtain ⟨_, _, _, k, done, s, w, hreach, _, _, hfinished⟩ := hends
  exact ⟨hs, k, done, s, w, hreach, hfinished⟩

end Gauntlet.Run
