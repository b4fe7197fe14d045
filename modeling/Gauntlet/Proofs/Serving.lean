import Gauntlet.Proofs.Control
import Gauntlet.Proofs.Verdict

/-! # When the service goes down

  A harness that is started once brings its service up, and a call to stop that finds the
  flag up shuts it down. But the watcher clears the flag, too, when it sees the cancellation,
  and a call to stop that comes later returns at once: the service stays up.

  - `Service.Starts` says once what starting does to the endpoints, so that it is known what a
    start that fails leaves up (`Session.start_failed_isUp_iff`).
  - `Tended` is the invariant: the service is as the start left it until the first call to
    stop comes to its end, and from then on it is down.
  - `isUp_after_stop_iff` tells exactly when the service outlives a call to stop, and
    `service_can_outlive_stop` that it can.
-/

namespace Gauntlet

/-! ### Starting and shutting down -/

theorem Serving.shut_ne_up (s : Serving) : s.shut ≠ .up := by
  cases s <;> simp [Serving.shut]

theorem Serving.strays_of_ne_up {s : Serving} (h : s ≠ .up) : s.strays = 0 := by
  cases s with
  | up => exact absurd rfl h
  | unbound => rfl
  | down => rfl

namespace Service

theorem isUp_eq_true_iff (s : Service) :
    s.isUp = true ↔ s.healthz = .up ∨ s.metrics = .up ∨ 0 < s.abandoned := by
  simp [isUp, or_assoc]

/-- After a shutdown only endpoints answer that others have taken the place of. -/
theorem isUp_shutdown (s : Service) : s.shutdown.isUp = true ↔ 0 < s.abandoned := by
  rw [isUp_eq_true_iff]
  simp [shutdown, Serving.shut_ne_up]

/-- The endpoints when the health probe is up, if it is wanted. -/
inductive Probes (e : Endpoints) (s : Service) : Service → Prop where
  | unwanted (hwanted : e.healthz = []) : Probes e s s
  | up (hwanted : e.healthz ≠ []) :
      Probes e s { s with healthz := .up, abandoned := s.abandoned + s.healthz.strays }

/-- What starting makes of the endpoints, and its failure if it fails. -/
inductive Starts (e : Endpoints) (s : Service) : Service → Option Failure → Prop where
  | unprobed (f : Failure) : Starts e s s (some f)
  | unmeasured {s₁ : Service} (hprobes : Probes e s s₁) (f : Failure) :
      Starts e s { s₁ with healthz := s₁.healthz.shut } (some f)
  | withoutMetrics {s₁ : Service} (hprobes : Probes e s s₁)
      (hwanted : e.metrics.enabled = false) : Starts e s s₁ none
  | withMetrics {s₁ : Service} (hprobes : Probes e s s₁) (hwanted : e.metrics.enabled = true) :
      Starts e s { s₁ with metrics := .up, abandoned := s₁.abandoned + s₁.metrics.strays } none

theorem probes_of_startHealthz {e : Endpoints} {s s' : Service} {m m' : Metrics}
    {others : List Binding} (h : startHealthz e s m others = (s', m', none)) : Probes e s s' := by
  unfold startHealthz at h
  by_cases hwanted : e.healthz = []
  · rw [if_pos hwanted] at h
    obtain ⟨rfl, _⟩ := Prod.mk.inj h
    exact .unwanted hwanted
  · rw [if_neg hwanted] at h
    cases hlisten : listen (others ++ bindings e s) e.healthz with
    | error f => simp [hlisten] at h
    | ok b =>
      simp only [hlisten] at h
      obtain ⟨rfl, _⟩ := Prod.mk.inj h
      exact .up hwanted

theorem startHealthz_failed {e : Endpoints} {s s' : Service} {m m' : Metrics}
    {others : List Binding} {f : Failure} (h : startHealthz e s m others = (s', m', some f)) :
    s' = s := by
  unfold startHealthz at h
  split at h
  · simp at h
  · split at h
    · simp at h
    · exact (Prod.mk.inj h).1.symm

/-- Starting does nothing else. -/
theorem starts_of_start {e : Endpoints} {s s' : Service} {m m' : Metrics} {others : List Binding}
    {f? : Option Failure} (h : start e s m others = (s', m', f?)) : Starts e s s' f? := by
  unfold start at h
  rcases hprobe : startHealthz e s m others with ⟨s₁, m₁, _ | f⟩
  · have hprobes : Probes e s s₁ := probes_of_startHealthz hprobe
    simp only [hprobe, startMetrics, Prod.mk.injEq] at h
    obtain ⟨rfl, _, rfl⟩ := h
    cases hwanted : e.metrics.enabled with
    | false => exact .withoutMetrics hprobes hwanted
    | true =>
      simp only [Bool.not_true, Bool.false_eq_true, if_false]
      cases listen (others ++ bindings e s₁) (metricsAddress e.metrics) with
      | error f => exact .unmeasured hprobes _
      | ok b => exact .withMetrics hprobes hwanted
  · simp only [hprobe, Prod.mk.injEq] at h
    obtain ⟨rfl, _, rfl⟩ := h
    rw [startHealthz_failed hprobe]
    exact .unprobed f

/-- With nothing up before, the health probe is all that can come up first. -/
theorem Probes.of_down {e : Endpoints} {s s₁ : Service} (h : Probes e s s₁)
    (hdown : s.isUp = false) :
    s₁.metrics ≠ .up ∧ s₁.abandoned = 0 ∧ (s₁.healthz = .up ↔ e.healthz ≠ []) := by
  obtain ⟨hhealthz, hmetrics, hnone⟩ : s.healthz ≠ .up ∧ s.metrics ≠ .up ∧ s.abandoned = 0 := by
    simpa [isUp, and_assoc] using hdown
  cases h with
  | unwanted hwanted => exact ⟨hmetrics, hnone, by simp [hhealthz, hwanted]⟩
  | up hwanted =>
    refine ⟨hmetrics, ?_, by simp [hwanted]⟩
    show s.abandoned + s.healthz.strays = 0
    rw [hnone, Serving.strays_of_ne_up hhealthz]

/-- With nothing up before, something is up after a start just if it succeeds and something
    is wanted, and nothing is left behind. -/
theorem start_of_down {e : Endpoints} {s s' : Service} {m m' : Metrics} {others : List Binding}
    {f? : Option Failure} (h : start e s m others = (s', m', f?)) (hdown : s.isUp = false) :
    s'.isUp = (f?.isNone && enabled e) ∧ s'.abandoned = 0 := by
  cases starts_of_start h with
  | unprobed f =>
    refine ⟨hdown, ?_⟩
    simp only [isUp, Bool.or_eq_false_iff, decide_eq_false_iff_not] at hdown
    omega
  | unmeasured hprobes f =>
    -- The health probe goes down again.
    obtain ⟨hmetrics, hnone, _⟩ := hprobes.of_down hdown
    exact ⟨by simp [isUp, Serving.shut_ne_up, hmetrics, hnone], hnone⟩
  | withoutMetrics hprobes hwanted =>
    obtain ⟨hmetrics, hnone, hhealthz⟩ := hprobes.of_down hdown
    exact ⟨by simp [isUp, enabled, hmetrics, hnone, hhealthz, hwanted], hnone⟩
  | withMetrics hprobes hwanted =>
    obtain ⟨hmetrics, hnone, _⟩ := hprobes.of_down hdown
    exact ⟨by simp [isUp, enabled, hwanted], by simp [hnone, Serving.strays_of_ne_up hmetrics]⟩

end Service

/-! ### From the start to a call to stop -/

namespace Control

/-- What has become of the service that the only start brought up, and why calls to stop may
    have passed it by. -/
structure Tended (service : Service) (ls : List Label) (s : State) : Prop where
  /-- It is as the start left it until it is shut down. -/
  service : s.service = if s.retired then service.shutdown else service
  retired : s.retired = true ↔ .shut ∈ ls
  /-- The watcher leaves by itself only if the work is cancelled. -/
  leaving : s.watcher = .leaving ∨ .leave ∈ ls → s.cancelled = true
  /-- If no call to stop has cleared the flag, then the watcher has. -/
  resting : s.caller = .idle → s.running = false → .shut ∈ ls ∨ .leave ∈ ls

theorem Tended.of_begins {service : Service} {s : State} (h : Begins true (.start service) s) :
    Tended service [] s := by
  obtain ⟨_, cancelled, hstep⟩ := h
  cases moves_of_step hstep with
  | start service hcaller => exact ⟨rfl, by simp, by simp, by simp⟩

/-- Steps that neither shut the service down nor clear the flag for good, and that let the
    watcher leave only if the work is cancelled. -/
theorem Tended.of_same {service : Service} {ls : List Label} {s t : State} {l : Label}
    (h : Tended service ls s) (hservice : t.service = s.service) (hretired : t.retired = s.retired)
    (hshut : l ≠ .shut) (hleave : l ≠ .leave)
    (hcancelled : s.cancelled = true → t.cancelled = true)
    (hwatcher : t.watcher = .leaving → s.watcher = .leaving ∨ t.cancelled = true)
    (hrest : t.caller = .idle → t.running = false → s.caller = .idle ∧ s.running = false) :
    Tended service (ls ++ [l]) t := by
  have hmem : ∀ k, k ≠ l → (k ∈ ls ++ [l] ↔ k ∈ ls) := by
    intro k hk
    simp [hk]
  refine ⟨?_, ?_, ?_, ?_⟩
  · rw [hservice, hretired]
    exact h.service
  · rw [hretired, hmem _ (Ne.symm hshut)]
    exact h.retired
  · rw [hmem _ (Ne.symm hleave)]
    rintro (hleaving | hleft)
    · rcases hwatcher hleaving with hbefore | hcancelled
      · exact hcancelled (h.leaving (Or.inl hbefore))
      · exact hcancelled
    · exact hcancelled (h.leaving (Or.inr hleft))
  · intro hidle hdown
    rw [hmem _ (Ne.symm hshut), hmem _ (Ne.symm hleave)]
    obtain ⟨hidle, hdown⟩ := hrest hidle hdown
    exact h.resting hidle hdown

/-- Every step but a start tends the service. -/
theorem Tended.step {service : Service} {ls : List Label} {s t : State} {l : Label}
    (h : Tended service ls s) (hs : Sound s) (hl : l.isStart = false) (hm : Moves true s l t) :
    Tended service (ls ++ [l]) t := by
  cases hm with
  | start service hcaller => simp [Label.isStart] at hl
  | failedStart service hcaller => simp [Label.isStart] at hl
  | started hcaller =>
    -- The first pass ends with the flag up.
    have hrunning := (hs.starting hcaller).2
    exact h.of_same rfl rfl (by simp) (by simp) id (by simp) (by simp [hrunning])
  | cancel => exact h.of_same rfl rfl (by simp) (by simp) (fun _ => rfl) Or.inl And.intro
  | tick hwatcher => exact h.of_same rfl rfl (by simp) (by simp) id (by simp) And.intro
  | lookAgain hwatcher hrunning =>
    exact h.of_same rfl rfl (by simp) (by simp) id (by simp) And.intro
  | lookAway hwatcher hrunning => exact h.of_same rfl rfl (by simp) (by simp) id (by simp) And.intro
  | passed hwatcher => exact h.of_same rfl rfl (by simp) (by simp) id (by simp) And.intro
  | seeDone hwatcher hdone => exact h.of_same rfl rfl (by simp) (by simp) id (by simp) And.intro
  | seeCancel hwatcher hcancelled =>
    exact h.of_same rfl rfl (by simp) (by simp) id (fun _ => Or.inr hcancelled) And.intro
  | leave hwatcher =>
    have hcancelled := h.leaving (Or.inl hwatcher)
    exact ⟨h.service, by simpa using h.retired, fun _ => hcancelled, fun _ _ => by simp⟩
  | stopRunning hcaller hrunning => exact h.of_same rfl rfl (by simp) (by simp) id Or.inl (by simp)
  | stopResting hcaller hrunning => exact h.of_same rfl rfl (by simp) (by simp) id Or.inl And.intro
  | clear hcaller => exact h.of_same rfl rfl (by simp) (by simp) id Or.inl (by simp)
  | signal hcaller => exact h.of_same rfl rfl (by simp) (by simp) id Or.inl (by simp)
  | join hcaller hwatcher => exact h.of_same rfl rfl (by simp) (by simp) id Or.inl (by simp)
  | shut hcaller =>
    have hgone := hs.joined hcaller
    refine ⟨?_, ?_, ?_, fun _ _ => by simp⟩
    · have hservice := h.service
      by_cases hretired : s.retired = true
      · simpa [State.retire, hretired] using hservice
      · simpa [State.retire, hretired] using congrArg Service.shutdown hservice
    · by_cases hretired : s.retired = true
      · simp [State.retire, hretired]
      · simp [State.retire, hretired]
    · rw [State.retire_eq]
      simp only [hgone, List.mem_append, List.mem_singleton, reduceCtorEq, or_false, false_or]
      exact fun hleave => h.leaving (Or.inr hleave)

theorem Continues.tended {service : Service} {s t : State} {ls : List Label}
    (hfirst : Begins true (.start service) s) (h : Continues true s ls t) :
    Tended service ls t := by
  induction h with
  | here => exact .of_begins hfirst
  | step l h hl hstep ih =>
    exact ih.step (h.sound (.of_begins hfirst)) hl (moves_of_step hstep)

/-- The service is up until its one shutdown. -/
theorem Tended.isUp_iff {service : Service} {s : State} {ls : List Label}
    (h : Tended service ls s) (hup : service.isUp = true) (hnone : service.abandoned = 0) :
    s.service.isUp = true ↔ .shut ∉ ls := by
  rw [h.service, ← h.retired]
  by_cases hretired : s.retired = true
  · rw [if_pos hretired, Service.isUp_shutdown]
    simp [hnone, hretired]
  · simp [hretired, hup]

/-- At rest the service stays as it is, whatever is called. -/
theorem Resting.service {wanted : Bool} {s t : State} {ls : List Label} (h : Resting s)
    (hc : Continues wanted s ls t) : t.service = s.service := by
  induction hc with
  | here => rfl
  | @step ls t u l hc hl hstep ih =>
    rw [← ih]
    have ht := h.continues hc
    cases moves_of_step hstep with
    | start service hcaller => simp [Label.isStart] at hl
    | failedStart service hcaller => simp [Label.isStart] at hl
    | shut hcaller => simp [ht.caller] at hcaller
    | _ => rfl

end Control

/-! ### Starts that fail -/

namespace Session

variable {σ : Type}

/-- A pass does not touch the service. -/
theorem control_after (h : Harness) (s : Session σ) (scene : Scene σ) :
    (s.after h scene).control.service = s.control.service ∧
    (s.after h scene).control.retired = s.control.retired := by
  unfold after
  dsimp only
  split <;> exact ⟨rfl, rfl⟩

/-- A start that makes one pass shuts its service down, however the pass ends, unless a shutdown
    has been made before. -/
theorem startOnce_service (h : Harness) (e : Surroundings σ) (s : Session σ) :
    (s.startOnce h e).1.control.service =
      if !served h || s.control.retired then s.control.service
      else s.control.service.shutdown := by
  obtain ⟨hservice, hretired⟩ := control_after h s (h.pass e s.scene).1
  have hanswered : (s.startOnce h e).1.control.service =
      ((s.after h (h.pass e s.scene).1).retired h).control.service := by
    show ((s.after h (h.pass e s.scene).1).answered h (h.pass e s.scene).2).1.control.service = _
    unfold answered
    dsimp only
    split <;> rfl
  rw [hanswered, ← hservice, ← hretired]
  unfold retired Control.State.retire
  dsimp only
  split <;> rfl

/-- What a start with nothing up makes of the service. -/
theorem serve_of_down {h : Harness} {s s' : Session σ} {service : Service} {f? : Option Failure}
    (hserve : s.serve h = (s', service, f?)) (hdown : s.control.service.isUp = false) :
    s'.control = s.control ∧ service.isUp = (f?.isNone && served h) ∧ service.abandoned = 0 := by
  unfold serve at hserve
  cases hserved : served h with
  | false =>
    simp only [hserved, Bool.not_false, if_true, Prod.mk.injEq] at hserve
    obtain ⟨rfl, rfl, _⟩ := hserve
    refine ⟨rfl, by simpa using hdown, ?_⟩
    simp only [Service.isUp, Bool.or_eq_false_iff, decide_eq_false_iff_not] at hdown
    omega
  | true =>
    simp only [hserved, Bool.not_true, Bool.false_eq_true, if_false] at hserve
    rcases hstart : Service.start h.settings.endpoints s.control.service s.scene.world.metrics with
      ⟨v, m, g?⟩
    simp only [hstart, Prod.mk.injEq] at hserve
    obtain ⟨rfl, rfl, rfl⟩ := hserve
    rw [← hserved]
    exact ⟨rfl, Service.start_of_down hstart hdown⟩

/-- A start that fails with nothing up before leaves a service up just if it makes one pass, the
    service came up for it, and the one shutdown has been made before. So neither an endpoint
    that came up before another one that did not is left, nor, without an earlier shutdown, the
    service of a pass that failed. -/
theorem start_failed_isUp_iff (h : Harness) (e : Surroundings σ) (s : Session σ) {f : Failure}
    (hserved : served h = true) (hidle : s.control.caller = .idle)
    (hdown : s.control.service.isUp = false) (hf : (s.start h e).2 = some f) :
    (s.start h e).1.control.service.isUp = true ↔
      h.settings.runOnce = true ∧ s.control.retired = true ∧ (s.serve h).2.2 = none := by
  unfold start at hf ⊢
  rcases hserve : s.serve h with ⟨s', service, _ | g⟩
  · obtain ⟨hcontrol, hisUp, hnone⟩ := serve_of_down hserve hdown
    simp only [hserve] at hf ⊢
    have hbegun : (s'.followed h [.start service]).control.service = service ∧
        (s'.followed h [.start service]).control.retired = s.control.retired := by
      simp [followed, Control.State.afterAll, Control.State.after, Control.State.step, hcontrol,
        hidle]
    by_cases honce : h.settings.runOnce = true
    · simp only [honce, if_true]
      rw [startOnce_service, hbegun.1, hbegun.2, hserved]
      cases s.control.retired with
      | true => simpa [hserved] using hisUp
      | false => simp [Service.isUp_shutdown, hnone]
    · -- A harness that goes on answers nothing, whatever its first pass comes to.
      simp [honce] at hf
  · obtain ⟨hcontrol, hisUp, _⟩ := serve_of_down hserve hdown
    have hservice : (s'.followed h [.failedStart service]).control.service = service := by
      simp [followed, Control.State.afterAll, Control.State.after, Control.State.step, hcontrol,
        hidle]
    simp only [hservice]
    simpa using hisUp

end Session

/-! ### After a call to stop -/

namespace Control

/-- **When a service outlives a call to stop.** Let a harness whose service comes up be
    started once. In every order of what its watcher and its caller do and of the
    cancellation, the service is up when a call to stop returns just if the watcher has
    left because of the cancellation and no call to stop has come to its end; and then no
    later call shuts it down. A start that fails, on the other hand, leaves nothing up if the
    harness goes on making passes. If it makes one pass, its service is left up just if it came
    up after the one shutdown. -/
theorem isUp_after_stop_iff {σ : Type} (h : Harness) (hserved : Session.served h = true)
    {service : Service} {m m' : Metrics}
    (hup : Service.start h.settings.endpoints {} m = (service, m', none))
    {s₀ s t : State} {ls : List Label} {l : Label} (hfirst : Begins true (.start service) s₀)
    (hc : Continues true s₀ ls s) (hreturns : StopReturns s l) (hstep : s.step true l = some t) :
    (t.service.isUp = true ↔ .leave ∈ ls ∧ .shut ∉ ls ++ [l]) ∧
    (.leave ∈ ls → t.cancelled = true) ∧
    (∀ later u, Continues true t later u → u.service = t.service) ∧
    ∀ (e : Surroundings σ) (s : Session σ) (f : Failure), s.control.caller = .idle →
      s.control.service.isUp = false → (s.start h e).2 = some f →
      ((s.start h e).1.control.service.isUp = true ↔
        h.settings.runOnce = true ∧ s.control.retired = true ∧ (s.serve h).2.2 = none) := by
  have hl : l.isStart = false := by
    rcases hreturns with ⟨rfl, _⟩ | rfl <;> rfl
  have hnow : Continues true s₀ (ls ++ [l]) t := .step l hc hl hstep
  have htended : Tended service (ls ++ [l]) t := hnow.tended hfirst
  have hrest : Resting t := (hc.sound (.of_begins hfirst)).resting_of_return hreturns hstep
  obtain ⟨hcame, hnone⟩ := Service.start_of_down hup rfl
  have hisUp := htended.isUp_iff (hcame.trans hserved) hnone
  refine ⟨?_, ?_, fun later u hlater => hrest.service hlater,
    fun e s f => s.start_failed_isUp_iff h e hserved⟩
  · rw [hisUp, iff_and_self]
    intro hshut
    -- Some step has cleared the flag, and no call to stop has.
    rcases htended.resting hrest.caller hrest.running with hmem | hmem
    · exact absurd hmem hshut
    · rcases hreturns with ⟨rfl, _⟩ | rfl <;> simpa using hmem
  · intro hleave
    exact htended.leaving (Or.inr (List.mem_append_left [l] hleave))

end Control

namespace Sample

/-- A harness with a health probe whose passes fail, since there is nothing to select from. -/
def probed : Harness where
  settings := { testsDir := "/none", suffix := ".x", healthzAddr := "127.0.0.1:18973" }
  build := {}
  course := { course with logs := none }
  workers := 1

/-- The watcher leaves because of the cancellation, and the call to stop that comes then
    does not reach the service. -/
theorem isUp_after_stop_iff_cancelled :
    let s₀ : Control.State :=
      { running := true, service := { healthz := .up }, caller := .starting }
    let t : Control.State := { service := { healthz := .up }, cancelled := true }
    Control.Begins true (.start { healthz := .up }) s₀ ∧
    Control.Continues true s₀ [.started, .cancel, .seeCancel, .leave] t ∧
    Control.StopReturns t .stop ∧ t.step true .stop = some t ∧ t.service.isUp = true := by
  intro s₀ t
  have hup : Service.start probed.settings.endpoints {} {} = ({ healthz := .up }, {}, none) := rfl
  have hfirst : Control.Begins true (.start { healthz := .up }) s₀ := ⟨rfl, false, rfl⟩
  have h : Control.Continues true s₀ [.started, .cancel, .seeCancel, .leave] t :=
    Control.continues_of_foldlM (by decide) rfl
  have hreturns : Control.StopReturns t .stop := Or.inl ⟨rfl, rfl⟩
  refine ⟨hfirst, h, hreturns, rfl, ?_⟩
  exact (Control.isUp_after_stop_iff (σ := Unit) probed (by decide +kernel) hup hfirst h hreturns
    rfl).1.mpr (by decide)

/-- A service outlives the call to stop that follows a cancellation; and since there is only
    one shutdown, the service of a second start outlives the second call to stop, and its
    address is not free for a third start. -/
theorem service_can_outlive_stop :
    (let s := (((opening.start probed halfway).1.cancel probed).react probed).stop probed
    s.stopped = true ∧ s.control.caller = .idle ∧ s.control.service.isUp = true) ∧
    let s := ((opening.start probed halfway).1.stop probed)
    let s := (s.start probed halfway).1.stop probed
    s.stopped = true ∧ s.control.caller = .idle ∧ s.control.service.isUp = true ∧
    (s.start probed halfway).2.isSome = true := by
  decide +kernel

end Sample

end Gauntlet
