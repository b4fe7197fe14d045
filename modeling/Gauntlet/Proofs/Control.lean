import Gauntlet.Harness.Control
import Mathlib.Data.List.Induction

/-! # Stopping a long-running harness

  What holds of control in every order of its steps, when a harness is started once: the
  watcher may see the end of its interval, the done signal or the cancellation first, and
  calls to stop come at any moment after the start has returned.

  - `Moves` says once what each step needs and what it changes.
  - `Continues` is an order of steps in which the harness is not started (again).
  - `Sound` is the invariant: there is no watcher while the first pass is made, a call to
    stop clears the flag before it gives the done signal, and whenever the flag is down
    between calls the watcher has left.
  - `Resting` is where a call to stop leads to: nothing is passing, and nothing that
    happens afterwards changes that.
-/

namespace Gauntlet.Control

variable {wanted : Bool}

/-! ### Steps -/

/-- What the steps of control need and what they change. -/
inductive Moves (wanted : Bool) (s : State) : Label → State → Prop where
  | start (service : Service) (hcaller : s.caller = .idle) :
      Moves wanted s (.start service)
        { s with running := true, done := false, service, caller := .starting }
  | failedStart (service : Service) (hcaller : s.caller = .idle) :
      Moves wanted s (.failedStart service) { s with running := false, done := false, service }
  | started (hcaller : s.caller = .starting) :
      Moves wanted s .started { s with watcher := .waiting, caller := .idle }
  | cancel : Moves wanted s .cancel { s with cancelled := true }
  | tick (hwatcher : s.watcher = .waiting) : Moves wanted s .tick { s with watcher := .fired }
  | lookAgain (hwatcher : s.watcher = .fired) (hrunning : s.running = true) :
      Moves wanted s .look { s with watcher := .passing }
  | lookAway (hwatcher : s.watcher = .fired) (hrunning : s.running = false) :
      Moves wanted s .look { s with watcher := .gone }
  | passed (hwatcher : s.watcher = .passing) :
      Moves wanted s .passed { s with watcher := .waiting }
  | seeDone (hwatcher : s.watcher = .waiting) (hdone : s.done = true) :
      Moves wanted s .seeDone { s with watcher := .gone }
  | seeCancel (hwatcher : s.watcher = .waiting) (hcancelled : s.cancelled = true) :
      Moves wanted s .seeCancel { s with watcher := .leaving }
  | leave (hwatcher : s.watcher = .leaving) :
      Moves wanted s .leave { s with running := false, watcher := .gone }
  | stopRunning (hcaller : s.caller = .idle) (hrunning : s.running = true) :
      Moves wanted s .stop { s with caller := .clearing }
  | stopResting (hcaller : s.caller = .idle) (hrunning : s.running = false) :
      Moves wanted s .stop s
  | clear (hcaller : s.caller = .clearing) :
      Moves wanted s .clear { s with running := false, caller := .signalling }
  | signal (hcaller : s.caller = .signalling) :
      Moves wanted s .signal
        { s with
          done := true
          overruns := if s.done then s.overruns + 1 else s.overruns
          caller := .joining }
  | join (hcaller : s.caller = .joining) (hwatcher : s.watcher = .gone) :
      Moves wanted s .join { s with caller := .shutting }
  | shut (hcaller : s.caller = .shutting) :
      Moves wanted s .shut { s.retire wanted with caller := .idle }

theorem guarded {p : Prop} [Decidable p] {s t : State} (h : (if p then some s else none) = some t) :
    p ∧ s = t := by
  obtain ⟨hguard, heq⟩ := Option.ite_none_right_eq_some.mp h
  exact ⟨hguard, Option.some.inj heq⟩

theorem moves_of_step {s t : State} {l : Label} (h : s.step wanted l = some t) :
    Moves wanted s l t := by
  cases l with
  | start service =>
    obtain ⟨hcaller, rfl⟩ := guarded h
    exact .start service hcaller
  | failedStart service =>
    obtain ⟨hcaller, rfl⟩ := guarded h
    exact .failedStart service hcaller
  | started =>
    obtain ⟨hcaller, rfl⟩ := guarded h
    exact .started hcaller
  | cancel =>
    obtain rfl := Option.some.inj h
    exact .cancel
  | tick =>
    obtain ⟨hwatcher, rfl⟩ := guarded h
    exact .tick hwatcher
  | look =>
    obtain ⟨hwatcher, rfl⟩ := guarded h
    by_cases hrunning : s.running = true
    · rw [if_pos hrunning]
      exact .lookAgain hwatcher hrunning
    · rw [if_neg hrunning]
      exact .lookAway hwatcher (Bool.of_not_eq_true hrunning)
  | passed =>
    obtain ⟨hwatcher, rfl⟩ := guarded h
    exact .passed hwatcher
  | seeDone =>
    obtain ⟨⟨hwatcher, hdone⟩, rfl⟩ := guarded h
    exact .seeDone hwatcher hdone
  | seeCancel =>
    obtain ⟨⟨hwatcher, hcancelled⟩, rfl⟩ := guarded h
    exact .seeCancel hwatcher hcancelled
  | leave =>
    obtain ⟨hwatcher, rfl⟩ := guarded h
    exact .leave hwatcher
  | stop =>
    obtain ⟨hcaller, rfl⟩ := guarded h
    by_cases hrunning : s.running = true
    · rw [if_pos hrunning]
      exact .stopRunning hcaller hrunning
    · rw [if_neg hrunning]
      exact .stopResting hcaller (Bool.of_not_eq_true hrunning)
  | clear =>
    obtain ⟨hcaller, rfl⟩ := guarded h
    exact .clear hcaller
  | signal =>
    obtain ⟨hcaller, rfl⟩ := guarded h
    exact .signal hcaller
  | join =>
    obtain ⟨⟨hcaller, hwatcher⟩, rfl⟩ := guarded h
    exact .join hcaller hwatcher
  | shut =>
    obtain ⟨hcaller, rfl⟩ := guarded h
    exact .shut hcaller

/-- A shutdown concerns the service only. -/
theorem State.retire_eq (wanted : Bool) (s : State) :
    s.retire wanted =
      { s with
        service := (s.retire wanted).service
        retired := (s.retire wanted).retired } := by
  unfold State.retire
  split <;> rfl

/-! ### Orders of steps -/

/-- The harness is started. -/
def Label.isStart : Label → Bool
  | .start _ => true
  | .failedStart _ => true
  | _ => false

/-- The labels lead from one state to another, and none of them is a start. -/
inductive Continues (wanted : Bool) (s : State) : List Label → State → Prop where
  | here : Continues wanted s [] s
  | step {ls : List Label} {t u : State} (l : Label) (h : Continues wanted s ls t)
      (hl : l.isStart = false) (hstep : t.step wanted l = some u) :
      Continues wanted s (ls ++ [l]) u

/-- Labels that can be followed one after the other, none of them a start, lead on. -/
theorem continues_of_foldlM {s t : State} {ls : List Label} (hls : ∀ l ∈ ls, l.isStart = false)
    (h : ls.foldlM (fun u l => u.step wanted l) s = some t) : Continues wanted s ls t := by
  induction ls using List.reverseRecOn generalizing t with
  | nil =>
    obtain rfl := Option.some.inj h
    exact .here
  | append_singleton ls l ih =>
    rw [List.foldlM_append] at h
    obtain ⟨u, hu, hlast⟩ := Option.bind_eq_some_iff.mp h
    have hstep : u.step wanted l = some t := by simpa using hlast
    exact .step l (ih (fun k hk => hls k (List.mem_append_left [l] hk)) hu) (hls l (by simp)) hstep

/-- The state right after the first start of a harness, whether it succeeded or not. The
    work may have been cancelled before. -/
def Begins (wanted : Bool) (first : Label) (s : State) : Prop :=
  first.isStart = true ∧ ∃ cancelled, State.step wanted { cancelled } first = some s

/-- A start renews the done signal. -/
theorem Begins.done {first : Label} {s : State} (h : Begins wanted first s) : s.done = false := by
  obtain ⟨hfirst, cancelled, hstep⟩ := h
  cases moves_of_step hstep with
  | start service hcaller => rfl
  | failedStart service hcaller => rfl
  | _ => simp [Label.isStart] at hfirst

/-- A call to stop returns with this step: at once if it finds the flag down, and else when
    it has shut the service down. -/
def StopReturns (s : State) (l : Label) : Prop := (l = .stop ∧ s.running = false) ∨ l = .shut

/-! ### The invariant -/

/-- What holds from the first start of a harness on, until it is started again. -/
structure Sound (s : State) : Prop where
  unbroken : s.overruns = 0
  /-- While the first pass is made there is no watcher. -/
  starting : s.caller = .starting → s.watcher = .gone ∧ s.running = true
  /-- The done signal is given with the flag down, by the last part of a call to stop. -/
  signalled : s.done = true →
    s.running = false ∧ (s.caller = .joining ∨ s.caller = .shutting ∨ s.caller = .idle)
  /-- A call to stop clears the flag first. -/
  cleared : s.caller = .signalling ∨ s.caller = .joining ∨ s.caller = .shutting →
    s.running = false
  /-- A call to stop awaits the watcher. -/
  joined : s.caller = .shutting → s.watcher = .gone
  /-- Between calls the flag is up until the watcher has left. -/
  resting : s.caller = .idle → s.running = false → s.watcher = .gone

namespace Sound

theorem of_begins {first : Label} {s : State} (h : Begins wanted first s) : Sound s := by
  obtain ⟨hfirst, cancelled, hstep⟩ := h
  cases moves_of_step hstep with
  | start service hcaller => constructor <;> simp
  | failedStart service hcaller => constructor <;> simp
  | _ => simp [Label.isStart] at hfirst

/-- The watcher is at work in no state in which it must be gone. -/
theorem of_watcher {s : State} (h : Sound s) (hwatcher : s.watcher ≠ .gone) (watcher : Watcher) :
    Sound { s with watcher } :=
  { unbroken := h.unbroken
    starting := fun hcaller => absurd (h.starting hcaller).1 hwatcher
    signalled := h.signalled
    cleared := h.cleared
    joined := fun hcaller => absurd (h.joined hcaller) hwatcher
    resting := fun hcaller hrunning => absurd (h.resting hcaller hrunning) hwatcher }

/-- Every step but a start keeps the invariant. -/
theorem step {s t : State} {l : Label} (h : Sound s) (hl : l.isStart = false)
    (hm : Moves wanted s l t) : Sound t := by
  cases hm with
  | start service hcaller => simp [Label.isStart] at hl
  | failedStart service hcaller => simp [Label.isStart] at hl
  | started hcaller =>
    obtain ⟨_, hrunning⟩ := h.starting hcaller
    refine ⟨h.unbroken, by simp, ?_, by simp, by simp, ?_⟩
    · intro hdone
      have := (h.signalled hdone).1
      simp [hrunning] at this
    · intro _ hdown
      simp [hrunning] at hdown
  | cancel => exact ⟨h.unbroken, h.starting, h.signalled, h.cleared, h.joined, h.resting⟩
  | tick hwatcher => exact h.of_watcher (by simp [hwatcher]) _
  | lookAgain hwatcher hrunning => exact h.of_watcher (by simp [hwatcher]) _
  | lookAway hwatcher hrunning => exact h.of_watcher (by simp [hwatcher]) _
  | passed hwatcher => exact h.of_watcher (by simp [hwatcher]) _
  | seeDone hwatcher hdone => exact h.of_watcher (by simp [hwatcher]) _
  | seeCancel hwatcher hcancelled => exact h.of_watcher (by simp [hwatcher]) _
  | leave hwatcher =>
    -- The watcher clears the flag itself, and then it is gone.
    refine ⟨h.unbroken, ?_, ?_, fun _ => rfl, fun _ => rfl, fun _ _ => rfl⟩
    · intro hcaller
      have := (h.starting hcaller).1
      simp [hwatcher] at this
    · intro hdone
      exact ⟨rfl, (h.signalled hdone).2⟩
  | stopRunning hcaller hrunning =>
    refine ⟨h.unbroken, by simp, ?_, by simp, by simp, by simp⟩
    intro hdone
    have := (h.signalled hdone).1
    simp [hrunning] at this
  | stopResting hcaller hrunning => exact h
  | clear hcaller =>
    refine ⟨h.unbroken, by simp, ?_, fun _ => rfl, by simp, by simp⟩
    intro hdone
    have := (h.signalled hdone).2
    simp [hcaller] at this
  | signal hcaller =>
    have hdone : s.done = false := by
      rw [← Bool.not_eq_true]
      intro hdone
      have := (h.signalled hdone).2
      simp [hcaller] at this
    have hrunning : s.running = false := h.cleared (Or.inl hcaller)
    refine ⟨?_, by simp, fun _ => ⟨hrunning, Or.inl rfl⟩, fun _ => hrunning, by simp, by simp⟩
    simp [hdone, h.unbroken]
  | join hcaller hwatcher =>
    have hrunning : s.running = false := h.cleared (Or.inr (Or.inl hcaller))
    exact ⟨h.unbroken, by simp, fun _ => ⟨hrunning, Or.inr (Or.inl rfl)⟩, fun _ => hrunning,
      fun _ => hwatcher, by simp⟩
  | shut hcaller =>
    have hrunning : s.running = false := h.cleared (Or.inr (Or.inr hcaller))
    have hwatcher : s.watcher = .gone := h.joined hcaller
    rw [State.retire_eq]
    exact ⟨h.unbroken, by simp, fun _ => ⟨hrunning, Or.inr (Or.inr rfl)⟩, by simp, by simp,
      fun _ _ => hwatcher⟩

/-- At most one pass is being made. -/
theorem passes_le_one {s : State} (h : Sound s) : s.passes ≤ 1 := by
  unfold State.passes
  by_cases hcaller : s.caller = .starting
  · simp [hcaller, (h.starting hcaller).1]
  · rw [if_neg hcaller]
    split <;> omega

end Sound

theorem Continues.sound {s t : State} {ls : List Label} (hs : Sound s)
    (h : Continues wanted s ls t) : Sound t := by
  induction h with
  | here => exact hs
  | step l _ hl hstep ih => exact ih.step hl (moves_of_step hstep)

/-- The done signal is given once if it has been given, and else not at all. -/
theorem Continues.count_signal {s t : State} {ls : List Label} (hs : Sound s)
    (hdone : s.done = false) (h : Continues wanted s ls t) :
    ls.count .signal = if t.done then 1 else 0 := by
  induction h with
  | here => simp [hdone]
  | @step ls t u l h hl hstep ih =>
    rw [List.count_append, ih, List.count_singleton]
    have ht := h.sound hs
    cases moves_of_step hstep with
    | signal hcaller =>
      have hnot : t.done = false := by
        rw [← Bool.not_eq_true]
        intro hgiven
        have := (ht.signalled hgiven).2
        simp [hcaller] at this
      simp [hnot]
    | shut hcaller =>
      rw [State.retire_eq]
      simp
    | start service hcaller => simp [Label.isStart] at hl
    | failedStart service hcaller => simp [Label.isStart] at hl
    | _ => simp

/-! ### Rest -/

/-- Nothing is under way, and the flag is down. -/
structure Resting (s : State) : Prop where
  caller : s.caller = .idle
  running : s.running = false
  watcher : s.watcher = .gone

/-- When a call to stop returns, the harness is at rest. -/
theorem Sound.resting_of_return {s t : State} {l : Label} (h : Sound s) (hr : StopReturns s l)
    (hstep : s.step wanted l = some t) : Resting t := by
  rcases hr with ⟨rfl, hrunning⟩ | rfl
  · cases moves_of_step hstep with
    | stopRunning _ hup => simp [hrunning] at hup
    | stopResting hcaller _ => exact ⟨hcaller, hrunning, h.resting hcaller hrunning⟩
  · cases moves_of_step hstep with
    | shut hcaller =>
      rw [State.retire_eq]
      exact ⟨rfl, h.cleared (Or.inr (Or.inr hcaller)), h.joined hcaller⟩

/-- A harness at rest stays at rest: only a cancellation or another call to stop is
    possible, and neither changes what is under way. -/
theorem Resting.step {s t : State} {l : Label} (h : Resting s) (hl : l.isStart = false)
    (hm : Moves wanted s l t) : Resting t := by
  obtain ⟨hidle, hdown, hgone⟩ := h
  cases hm with
  | cancel => exact ⟨hidle, hdown, hgone⟩
  | stopResting hcaller hrunning => exact ⟨hidle, hdown, hgone⟩
  | start service hcaller => simp [Label.isStart] at hl
  | failedStart service hcaller => simp [Label.isStart] at hl
  | stopRunning hcaller hrunning => simp [hdown] at hrunning
  | _ => simp_all

theorem Resting.continues {s t : State} {ls : List Label} (h : Resting s)
    (hc : Continues wanted s ls t) : Resting t := by
  induction hc with
  | here => exact h
  | step l _ hl hstep ih => exact ih.step hl (moves_of_step hstep)

theorem Resting.passes {s : State} (h : Resting s) : s.passes = 0 := by
  simp [State.passes, h.caller, h.watcher]

/-- **Passes do not overlap, and they end with a call to stop.** Let a harness be started
    once. In every order of what its watcher and its caller do and of the cancellation, at
    most one pass is being made at a time, the done signal is given at most once, and never
    when it has been given already. When a call to stop returns no pass is being made; and
    whatever happens afterwards, calls to stop included, no pass is made any more and the
    harness stays stopped. -/
theorem stop_ends_passes (wanted : Bool) {first : Label} {s₀ s : State} {ls : List Label}
    (hfirst : Begins wanted first s₀) (h : Continues wanted s₀ ls s) :
    s.passes ≤ 1 ∧ s.overruns = 0 ∧ ls.count .signal ≤ 1 ∧
    ∀ l t, StopReturns s l → s.step wanted l = some t →
      t.passes = 0 ∧ t.running = false ∧
      ∀ later u, Continues wanted t later u → u.passes = 0 ∧ u.running = false := by
  have hbegun : Sound s₀ := .of_begins hfirst
  have hsound : Sound s := h.sound hbegun
  refine ⟨hsound.passes_le_one, hsound.unbroken, ?_, ?_⟩
  · rw [h.count_signal hbegun hfirst.done]
    split <;> omega
  · intro l t hreturns hstep
    have hrest : Resting t := hsound.resting_of_return hreturns hstep
    refine ⟨hrest.passes, hrest.running, ?_⟩
    intro later u hlater
    have hstill : Resting u := hrest.continues hlater
    exact ⟨hstill.passes, hstill.running⟩

/-- A call to stop that comes while the watcher makes a pass: it awaits the end of the pass,
    and a second call finds the harness at rest. -/
theorem stop_ends_passes_midway :
    let s₀ : State := { running := true, caller := .starting }
    let s : State := { done := true, caller := .shutting }
    let t : State := { done := true, retired := true }
    Begins true (.start {}) s₀ ∧
    Continues true s₀
      [.started, .tick, .look, .stop, .clear, .signal, .passed, .seeDone, .join] s ∧
    StopReturns s .shut ∧ s.step true .shut = some t ∧ t.passes = 0 ∧
    Continues true t [.cancel, .stop] { t with cancelled := true } ∧
    State.passes { t with cancelled := true } = 0 := by
  intro s₀ s t
  have hfirst : Begins true (.start {}) s₀ := ⟨rfl, false, rfl⟩
  have h : Continues true s₀
      [.started, .tick, .look, .stop, .clear, .signal, .passed, .seeDone, .join] s :=
    continues_of_foldlM (by decide) rfl
  have hlater : Continues true t [.cancel, .stop] { t with cancelled := true } :=
    continues_of_foldlM (by decide) rfl
  have hstopped := (stop_ends_passes true hfirst h).2.2.2 .shut t (Or.inr rfl) rfl
  exact ⟨hfirst, h, Or.inr rfl, rfl, hstopped.1, hlater, (hstopped.2.2 _ _ hlater).1⟩

end Gauntlet.Control
