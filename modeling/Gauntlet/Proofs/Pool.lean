import Gauntlet.Pool

/-! # Schedules of the worker pool

  What holds of a pool in every schedule: in any order of the participants' steps, and
  whatever the surroundings do to the world in between.

  - `Moves` says once what each step needs and what it changes.
  - `Reaches` is a schedule so far, with the number of its steps and the jobs that were
    carried out. Between two steps the surroundings may change the world, and so cancel
    the run at any moment; what is cancelled stays cancelled.
  - `Ledger` is the invariant: each number that was sent is waiting, being carried out
    or carried out, exactly once; each outcome is in hand, queued or collected, exactly
    once; each worker is idle, busy or gone.
  - `remaining` counts the steps that are left. Every step takes one away, and until the
    collector has ended there is always a step to take.
-/

namespace Gauntlet.Pool

variable {ρ ω : Type} {shape : Shape} {jobs : Jobs ρ ω}

/-! ### Steps -/

/-- What the steps of a pool need and what they change. -/
inductive Moves (shape : Shape) (jobs : Jobs ρ ω) (s : State ρ) (w : ω) :
    Label → State ρ → ω → Prop where
  | dispatch (hd : s.dispatching = true) (hn : s.sent < shape.jobs)
      (hq : s.work.length < shape.capacity) :
      Moves shape jobs s w .dispatch { s with work := s.work ++ [s.sent], sent := s.sent + 1 } w
  | closeWork (hd : s.dispatching = true) (hc : s.sent = shape.jobs ∨ jobs.cancelled w = true) :
      Moves shape jobs s w .closeWork { s with dispatching := false } w
  | take (i : Nat) (rest : List Nat) (hw : s.work = i :: rest) (hi : 0 < s.idle) :
      Moves shape jobs s w .take
        { s with work := rest, idle := s.idle - 1, running := s.running ++ [i] } w
  | carryOut (i : Nat) (hr : i ∈ s.running) :
      Moves shape jobs s w (.carryOut i)
        { s with
          running := s.running.erase i
          holding := s.holding ++ [(i, (jobs.carryOut i w).1)] } (jobs.carryOut i w).2
  | hand (p : Nat × ρ) (front back : List (Nat × ρ)) (hh : s.holding = front ++ p :: back)
      (hq : s.outcomes.length < shape.capacity) :
      Moves shape jobs s w (.hand p.1)
        { s with holding := front ++ back, outcomes := s.outcomes ++ [p], idle := s.idle + 1 } w
  | leave (hi : 0 < s.idle)
      (hl : (s.dispatching = false ∧ s.work = []) ∨ jobs.cancelled w = true) :
      Moves shape jobs s w .leave { s with idle := s.idle - 1, left := s.left + 1 } w
  | closeOutcomes (hs : s.sealed = false) (hl : s.left = shape.workers) :
      Moves shape jobs s w .closeOutcomes { s with sealed := true } w
  | collect (p : Nat × ρ) (rest : List (Nat × ρ)) (ho : s.outcomes = p :: rest) :
      Moves shape jobs s w .collect
        { s with outcomes := rest, collected := s.collected ++ [p] } w
  | finish (hs : s.sealed = true) (ho : s.outcomes = []) (he : s.ended = false) :
      Moves shape jobs s w .finish { s with ended := true } w

/-- What a list loses with the first element of a kind. -/
theorem eraseP_of_find {α : Type} {q : α → Bool} {l : List α} {a : α} (h : l.find? q = some a) :
    ∃ front back, l = front ++ a :: back ∧ l.eraseP q = front ++ back := by
  obtain ⟨ha, front, back, rfl, hfront⟩ := List.find?_eq_some_iff_append.mp h
  refine ⟨front, back, rfl, ?_⟩
  rw [List.eraseP_append_right _ (by simpa using hfront), List.eraseP_cons_of_pos ha]

/-- Every step is one of those listed. -/
theorem moves_of_step {s s' : State ρ} {w w' : ω} {l : Label}
    (h : step shape jobs s w l = some (s', w')) : Moves shape jobs s w l s' w' := by
  cases l with
  | dispatch =>
    simp only [step] at h
    split at h
    · rename_i hg
      simp only [Bool.and_eq_true, decide_eq_true_eq] at hg
      cases h
      exact .dispatch hg.1.1 hg.1.2 hg.2
    · cases h
  | closeWork =>
    simp only [step] at h
    split at h
    · rename_i hg
      simp only [Bool.and_eq_true, Bool.or_eq_true, decide_eq_true_eq] at hg
      cases h
      exact .closeWork hg.1 hg.2
    · cases h
  | take =>
    simp only [step] at h
    split at h
    · rename_i i rest hw
      split at h
      · rename_i hi
        cases h
        exact .take i rest hw hi
      · cases h
    · cases h
  | carryOut i =>
    simp only [step] at h
    split at h
    · rename_i hr
      cases h
      exact .carryOut i (List.contains_iff_mem.mp hr)
    · cases h
  | hand i =>
    simp only [step] at h
    split at h
    · rename_i p hp
      obtain ⟨front, back, hh, herase⟩ := eraseP_of_find hp
      have hi : p.1 = i := by simpa using List.find?_some hp
      subst hi
      split at h
      · rename_i hq
        cases h
        rw [herase]
        exact .hand p front back hh hq
      · cases h
    · cases h
  | leave =>
    simp only [step] at h
    split at h
    · rename_i hg
      simp only [Bool.and_eq_true, Bool.or_eq_true, decide_eq_true_eq, Bool.not_eq_true',
        List.isEmpty_iff] at hg
      cases h
      exact .leave hg.1 hg.2
    · cases h
  | closeOutcomes =>
    simp only [step] at h
    split at h
    · rename_i hg
      simp only [Bool.and_eq_true, decide_eq_true_eq, Bool.not_eq_true'] at hg
      cases h
      exact .closeOutcomes hg.1 hg.2
    · cases h
  | collect =>
    simp only [step] at h
    split at h
    · rename_i p rest ho
      cases h
      exact .collect p rest ho
    · cases h
  | finish =>
    simp only [step] at h
    split at h
    · rename_i hg
      simp only [Bool.and_eq_true, Bool.not_eq_true', List.isEmpty_iff] at hg
      cases h
      exact .finish hg.1.1 hg.1.2 hg.2
    · cases h

/-! ### Schedules -/

/-- The job that a step carries out, with its outcome. -/
def Label.performed (jobs : Jobs ρ ω) (w : ω) : Label → List (Nat × ρ)
  | .carryOut i => [(i, (jobs.carryOut i w).1)]
  | _ => []

/-- A cancelled run stays cancelled while a job is carried out. -/
def Jobs.Steady (jobs : Jobs ρ ω) : Prop :=
  ∀ i w, jobs.cancelled w = true → jobs.cancelled (jobs.carryOut i w).2 = true

/-- The state and the world after a schedule of so many steps, in which so many jobs were
    carried out. The surroundings take part: they change the world at will, except that
    they never take a cancellation back. -/
inductive Reaches (shape : Shape) (jobs : Jobs ρ ω) (w₀ : ω) :
    (steps : Nat) → (done : List (Nat × ρ)) → State ρ → ω → Prop where
  | start : Reaches shape jobs w₀ 0 [] (.initial shape) w₀
  | act {k : Nat} {done : List (Nat × ρ)} {s s' : State ρ} {w w' : ω} (l : Label)
      (h : Reaches shape jobs w₀ k done s w) (hstep : step shape jobs s w l = some (s', w')) :
      Reaches shape jobs w₀ (k + 1) (done ++ l.performed jobs w) s' w'
  | disturb {k : Nat} {done : List (Nat × ρ)} {s : State ρ} {w w' : ω}
      (h : Reaches shape jobs w₀ k done s w)
      (hc : jobs.cancelled w = true → jobs.cancelled w' = true) :
      Reaches shape jobs w₀ k done s w'

/-! ### The invariant -/

/-- Where everything is. -/
structure Ledger (shape : Shape) (jobs : Jobs ρ ω) (done : List (Nat × ρ)) (s : State ρ)
    (w : ω) : Prop where
  sent_le : s.sent ≤ shape.jobs
  /-- A number that was sent is waiting, being carried out, or carried out. -/
  numbers : (s.work ++ s.running ++ done.map Prod.fst).Perm (List.range s.sent)
  /-- The outcome of a job is in a worker's hand, queued or collected. -/
  results : (s.holding ++ s.outcomes ++ s.collected).Perm done
  /-- A worker is idle, busy or gone. -/
  staff : s.idle + s.running.length + s.holding.length + s.left = shape.workers
  /-- The dispatcher stops early only in a cancelled run. -/
  stopped : s.dispatching = false → s.sent = shape.jobs ∨ jobs.cancelled w = true
  /-- Workers leave early only in a cancelled run. -/
  released : 0 < s.left → (s.dispatching = false ∧ s.work = []) ∨ jobs.cancelled w = true
  closed : s.sealed = true → s.left = shape.workers
  finished : s.ended = true → s.sealed = true ∧ s.outcomes = []

namespace Ledger

theorem initial (shape : Shape) (jobs : Jobs ρ ω) (w : ω) :
    Ledger shape jobs [] (.initial shape) w where
  sent_le := Nat.zero_le _
  numbers := .refl _
  results := .refl _
  staff := by simp [State.initial]
  stopped := by simp [State.initial]
  released := by simp [State.initial]
  closed := by simp [State.initial]
  finished := by simp [State.initial]

/-- The surroundings cannot spoil the books. -/
theorem disturbed {done : List (Nat × ρ)} {s : State ρ} {w w' : ω}
    (h : Ledger shape jobs done s w) (hc : jobs.cancelled w = true → jobs.cancelled w' = true) :
    Ledger shape jobs done s w' :=
  { h with
    stopped := fun hd => (h.stopped hd).imp_right hc
    released := fun hl => (h.released hl).imp_right hc }

/-- Once sealed, the pool has no worker that could hand over an outcome. -/
theorem deserted {done : List (Nat × ρ)} {s : State ρ} {w : ω} (h : Ledger shape jobs done s w)
    (hs : s.left = shape.workers) : s.idle = 0 ∧ s.running = [] ∧ s.holding = [] := by
  have hstaff := h.staff
  refine ⟨by omega, ?_, ?_⟩
  · exact List.eq_nil_of_length_eq_zero (by omega)
  · exact List.eq_nil_of_length_eq_zero (by omega)

/-- Every step keeps the books. -/
theorem step {done : List (Nat × ρ)} {s s' : State ρ} {w w' : ω} {l : Label}
    (hj : jobs.Steady) (h : Ledger shape jobs done s w) (hm : Moves shape jobs s w l s' w') :
    Ledger shape jobs (done ++ l.performed jobs w) s' w' := by
  cases hm with
  | dispatch hd hn hq =>
    -- The next number joins those that wait.
    simp only [Label.performed, List.append_nil]
    exact { h with
      sent_le := hn
      numbers := by
        rw [List.range_succ]
        refine List.Perm.trans ?_ (h.numbers.append_right [s.sent])
        simp only [List.append_assoc]
        rw [← List.append_assoc s.running]
        exact List.Perm.append_left _ List.perm_append_comm
      stopped := fun hd' => absurd (hd.symm.trans hd') (by simp)
      released := fun hl => Or.inr <| (h.released hl).resolve_left
        fun hf => absurd (hd.symm.trans hf.1) (by simp) }
  | closeWork hd hc =>
    simp only [Label.performed, List.append_nil]
    exact { h with
      stopped := fun _ => hc
      released := fun hl => Or.inr <| (h.released hl).resolve_left
        fun hf => absurd (hd.symm.trans hf.1) (by simp) }
  | take i rest hw hi =>
    simp only [Label.performed, List.append_nil]
    exact { h with
      numbers := by
        refine List.Perm.trans ?_ h.numbers
        rw [hw]
        simp only [List.append_assoc, List.cons_append, List.nil_append]
        rw [← List.append_assoc]
        refine List.perm_middle.trans ?_
        simp
      staff := by
        have := h.staff
        simp only [List.length_append, List.length_singleton]
        omega
      released := fun hl => (h.released hl).imp_left fun hf => by
        rw [hw] at hf
        exact absurd hf.2 (by simp) }
  | carryOut i hr =>
    simp only [Label.performed]
    exact { h with
      numbers := by
        refine List.Perm.trans ?_ h.numbers
        simp only [List.map_append, List.map_cons, List.map_nil, List.append_assoc]
        refine List.Perm.append_left _ ?_
        refine List.Perm.trans ?_ ((List.perm_cons_erase hr).symm.append_right _)
        rw [← List.append_assoc]
        exact (List.perm_append_singleton _ _).trans (by simp)
      results := by
        refine List.Perm.trans ?_ (h.results.append_right _)
        simp only [List.append_assoc]
        exact List.Perm.append_left _
          (List.perm_append_comm.trans (by simp only [List.append_assoc]; exact .refl _))
      staff := by
        have := h.staff
        have hpos := List.length_pos_of_mem hr
        simp only [List.length_append, List.length_singleton, List.length_erase_of_mem hr]
        omega
      stopped := fun hd => (h.stopped hd).imp_right (hj i w)
      released := fun hl => (h.released hl).imp_right (hj i w) }
  | hand p front back hh hq =>
    simp only [Label.performed, List.append_nil]
    have hstaff := h.staff
    exact { h with
      results := by
        refine List.Perm.trans ?_ h.results
        rw [hh]
        simp only [List.append_assoc, List.cons_append, List.nil_append]
        refine List.Perm.append_left _ ?_
        rw [← List.append_assoc]
        refine List.perm_middle.trans ?_
        simp
      staff := by
        rw [hh] at hstaff
        simp only [List.length_append, List.length_cons] at hstaff ⊢
        omega
      closed := fun hs => by
        have := (h.deserted (h.closed hs)).2.2
        rw [hh] at this
        exact absurd this (by simp)
      finished := fun he => by
        have := (h.deserted (h.closed (h.finished he).1)).2.2
        rw [hh] at this
        exact absurd this (by simp) }
  | leave hi hl =>
    simp only [Label.performed, List.append_nil]
    exact { h with
      staff := by
        have := h.staff
        simp only
        omega
      released := fun _ => hl
      closed := fun hs => by
        have := (h.deserted (h.closed hs)).1
        omega }
  | closeOutcomes hs hl =>
    simp only [Label.performed, List.append_nil]
    exact { h with
      closed := fun _ => hl
      finished := fun he => ⟨rfl, (h.finished he).2⟩ }
  | collect p rest ho =>
    simp only [Label.performed, List.append_nil]
    exact { h with
      results := by
        refine List.Perm.trans ?_ h.results
        rw [ho]
        simp only [List.append_assoc]
        refine List.Perm.append_left _ ?_
        rw [← List.append_assoc]
        exact List.perm_append_singleton _ _
      finished := fun he => by
        have := (h.finished he).2
        rw [ho] at this
        exact absurd this (by simp) }
  | finish hs ho he =>
    simp only [Label.performed, List.append_nil]
    exact { h with finished := fun _ => ⟨hs, ho⟩ }

theorem nodup_done {done : List (Nat × ρ)} {s : State ρ} {w : ω}
    (h : Ledger shape jobs done s w) : (done.map Prod.fst).Nodup := by
  have hnodup := h.numbers.nodup_iff.mpr List.nodup_range
  exact (List.nodup_append.mp hnodup).2.1

theorem lt_of_mem_done {done : List (Nat × ρ)} {s : State ρ} {w : ω}
    (h : Ledger shape jobs done s w) {p : Nat × ρ} (hp : p ∈ done) : p.1 < shape.jobs := by
  have hmem : p.1 ∈ s.work ++ s.running ++ done.map Prod.fst :=
    List.mem_append_right _ (List.mem_map_of_mem hp)
  have := List.mem_range.mp (h.numbers.mem_iff.mp hmem)
  exact Nat.lt_of_lt_of_le this h.sent_le

theorem mem_done_of_collected {done : List (Nat × ρ)} {s : State ρ} {w : ω}
    (h : Ledger shape jobs done s w) {p : Nat × ρ} (hp : p ∈ s.collected) : p ∈ done :=
  h.results.mem_iff.mp (List.mem_append_right _ hp)

theorem nodup_collected {done : List (Nat × ρ)} {s : State ρ} {w : ω}
    (h : Ledger shape jobs done s w) : (s.collected.map Prod.fst).Nodup := by
  have hnodup := (h.results.map Prod.fst).nodup_iff.mpr h.nodup_done
  rw [List.map_append] at hnodup
  exact (List.nodup_append.mp hnodup).2.1

/-- When the collector has ended, everything carried out has been collected. -/
theorem collected_perm {done : List (Nat × ρ)} {s : State ρ} {w : ω}
    (h : Ledger shape jobs done s w) (he : s.ended = true) : s.collected.Perm done := by
  obtain ⟨hsealed, houtcomes⟩ := h.finished he
  have hholding := (h.deserted (h.closed hsealed)).2.2
  have hresults := h.results
  rw [houtcomes, hholding] at hresults
  exact hresults

/-- A pool that was not cancelled ends with every job carried out. -/
theorem done_perm_range {done : List (Nat × ρ)} {s : State ρ} {w : ω}
    (h : Ledger shape jobs done s w) (hw : 0 < shape.workers) (he : s.ended = true)
    (hc : jobs.cancelled w = false) : (done.map Prod.fst).Perm (List.range shape.jobs) := by
  have hleft := h.closed (h.finished he).1
  have hnot : ¬ jobs.cancelled w = true := by rw [hc]; exact Bool.false_ne_true
  -- The workers have left because the dispatcher had sent everything.
  obtain ⟨hstopped, hwork⟩ := (h.released (hleft ▸ hw)).resolve_right hnot
  have hsent := (h.stopped hstopped).resolve_right hnot
  have hnumbers := h.numbers
  rw [hwork, (h.deserted hleft).2.1, hsent] at hnumbers
  exact hnumbers

end Ledger

/-- The books are right in every schedule. -/
theorem Reaches.ledger {w₀ w : ω} {k : Nat} {done : List (Nat × ρ)} {s : State ρ}
    (hj : jobs.Steady) (h : Reaches shape jobs w₀ k done s w) : Ledger shape jobs done s w := by
  induction h with
  | start => exact .initial shape jobs w₀
  | act l _ hstep ih => exact ih.step hj (moves_of_step hstep)
  | disturb _ hc ih => exact ih.disturbed hc

/-- The jobs carried out have the outcomes that carrying them out gave. -/
theorem Reaches.outcome {w₀ w : ω} {k : Nat} {done : List (Nat × ρ)} {s : State ρ}
    (h : Reaches shape jobs w₀ k done s w) {p : Nat × ρ} (hp : p ∈ done) :
    ∃ v, p.2 = (jobs.carryOut p.1 v).1 := by
  induction h with
  | start => exact absurd hp (by simp)
  | @act k done s s' w w' l _ hstep ih =>
    rcases List.mem_append.mp hp with hp | hp
    · exact ih hp
    · cases l with
      | carryOut i =>
        rw [Label.performed, List.mem_singleton] at hp
        subst hp
        exact ⟨w, rfl⟩
      | _ => exact absurd hp (by simp [Label.performed])
  | disturb _ _ ih => exact ih hp

/-! ### Progress -/

/-- The number of steps that are left. -/
def remaining (shape : Shape) (s : State ρ) : Nat :=
  5 * (shape.jobs - s.sent) + 4 * s.work.length + 3 * s.running.length + 2 * s.holding.length +
    s.outcomes.length + (s.idle + s.running.length + s.holding.length) +
    (if s.dispatching then 1 else 0) + (if s.sealed then 0 else 1) + (if s.ended then 0 else 1)

theorem remaining_initial (shape : Shape) :
    remaining shape (.initial shape : State ρ) = enough shape := by
  simp only [remaining, State.initial, enough, List.length_nil]
  simp

/-- Every step takes one away from the steps that are left. -/
theorem remaining_step {s s' : State ρ} {w w' : ω} {l : Label}
    (hm : Moves shape jobs s w l s' w') : remaining shape s = remaining shape s' + 1 := by
  cases hm with
  | dispatch hd hn hq =>
    simp only [remaining, List.length_append, List.length_singleton]
    omega
  | closeWork hd hc =>
    simp only [remaining, hd, if_true]
    simp
    omega
  | take i rest hw hi =>
    simp only [remaining, hw, List.length_append, List.length_cons, List.length_nil]
    omega
  | carryOut i hr =>
    have hpos := List.length_pos_of_mem hr
    simp only [remaining, List.length_append, List.length_singleton, List.length_erase_of_mem hr]
    omega
  | hand p front back hh hq =>
    simp only [remaining, hh, List.length_append, List.length_cons, List.length_nil]
    omega
  | leave hi hl =>
    simp only [remaining]
    omega
  | closeOutcomes hs hl =>
    simp only [remaining, hs, if_true]
    simp
    omega
  | collect p rest ho =>
    simp only [remaining, ho, List.length_cons]
    omega
  | finish hs ho he =>
    simp only [remaining, he, if_true]
    simp

/-- The steps taken and the steps left are as many as were planned. -/
theorem Reaches.steps_add_remaining {w₀ w : ω} {k : Nat} {done : List (Nat × ρ)} {s : State ρ}
    (h : Reaches shape jobs w₀ k done s w) : k + remaining shape s = enough shape := by
  induction h with
  | start => rw [remaining_initial, Nat.zero_add]
  | act l _ hstep ih =>
    have := remaining_step (moves_of_step hstep)
    omega
  | disturb _ _ ih => exact ih

/-- Until the collector has ended, one of the candidates is enabled. -/
theorem Ledger.exists_candidate {done : List (Nat × ρ)} {s : State ρ} {w : ω}
    (h : Ledger shape jobs done s w) (hw : 0 < shape.workers) (he : s.ended = false) :
    ∃ l ∈ candidates s, (Pool.step shape jobs s w l).isSome = true := by
  have hcap : 0 < shape.capacity := by
    simp only [Shape.capacity, maxCapacity]
    omega
  have hstaff := h.staff
  -- What can be collected, handed over or carried out comes first.
  cases houtcomes : s.outcomes with
  | cons p rest => exact ⟨.collect, by simp [candidates], by simp [Pool.step, houtcomes]⟩
  | nil =>
  cases hholding : s.holding with
  | cons p rest =>
    exact ⟨.hand p.1, by simp [candidates, hholding],
      by simp [Pool.step, hholding, houtcomes, hcap]⟩
  | nil =>
  cases hmin : s.running.min? with
  | some i =>
    have hi : i ∈ s.running := List.min?_mem hmin
    exact ⟨.carryOut i, by simp [candidates, hmin], by simp [Pool.step, hi]⟩
  | none =>
  have hrunning : s.running = [] := List.min?_eq_none_iff.mp hmin
  rw [hrunning, hholding] at hstaff
  simp only [List.length_nil, Nat.add_zero] at hstaff
  -- All workers are idle or gone.
  by_cases hidle : 0 < s.idle
  · cases hwork : s.work with
    | cons i rest => exact ⟨.take, by simp [candidates], by simp [Pool.step, hwork, hidle]⟩
    | nil =>
      cases hd : s.dispatching with
      | false => exact ⟨.leave, by simp [candidates], by simp [Pool.step, hidle, hd, hwork]⟩
      | true =>
        by_cases hsent : s.sent = shape.jobs
        · exact ⟨.closeWork, by simp [candidates], by simp [Pool.step, hd, hsent]⟩
        · have hlt : s.sent < shape.jobs := Nat.lt_of_le_of_ne h.sent_le hsent
          exact ⟨.dispatch, by simp [candidates], by simp [Pool.step, hd, hlt, hwork, hcap]⟩
  · have hleft : s.left = shape.workers := by omega
    cases hs : s.sealed with
    | false => exact ⟨.closeOutcomes, by simp [candidates], by simp [Pool.step, hs, hleft]⟩
    | true => exact ⟨.finish, by simp [candidates], by simp [Pool.step, hs, houtcomes, he]⟩

/-! ### The schedule that is followed -/

/-- Following the candidates extends a schedule until nothing is enabled or the steps are
    used up. -/
theorem Reaches.follow {w₀ w : ω} {k n : Nat} {done : List (Nat × ρ)} {s : State ρ}
    (h : Reaches shape jobs w₀ k done s w) :
    ∃ k' done', Reaches shape jobs w₀ k' done' (follow shape jobs n s w).1
        (follow shape jobs n s w).2 ∧
      (k' = k + n ∨
        next shape jobs (Pool.follow shape jobs n s w).1 (Pool.follow shape jobs n s w).2 = none) := by
  induction n generalizing k done s w with
  | zero => exact ⟨k, done, h, Or.inl rfl⟩
  | succ n ih =>
    rw [Pool.follow]
    split
    · rename_i hnone
      exact ⟨k, done, h, Or.inr hnone⟩
    · rename_i s' w' hsome
      obtain ⟨l, _, hstep⟩ := List.exists_of_findSome?_eq_some hsome
      obtain ⟨k', done', hreach, hend⟩ := ih (h.act l hstep)
      exact ⟨k', done', hreach, hend.imp_left fun hk => by omega⟩

/-- A pool with a worker that follows the candidates comes to its end, and what it gives is
    what one of the schedules collects. -/
theorem complete_reaches (hj : jobs.Steady) (hw : 0 < shape.workers) (w : ω) :
    ∃ k done s, Reaches shape jobs w k done s (complete shape jobs w).2 ∧ s.ended = true ∧
      (complete shape jobs w).1 = s.collected := by
  obtain ⟨k, done, hreach, hend⟩ :=
    (Reaches.start : Reaches shape jobs w 0 [] (.initial shape) w).follow (n := enough shape)
  refine ⟨k, done, _, hreach, ?_, rfl⟩
  have hledger := hreach.ledger hj
  rw [← Bool.not_eq_false]
  intro he
  -- A step that is still enabled would be one too many, or one that was not followed.
  obtain ⟨l, hl, hsome⟩ := hledger.exists_candidate hw he
  obtain ⟨⟨s', w'⟩, hstep⟩ := Option.isSome_iff_exists.mp hsome
  rcases hend with hk | hnone
  · have hcount := (hreach.act l hstep).steps_add_remaining
    omega
  · rw [next, List.findSome?_eq_none_iff] at hnone
    rw [hnone l hl] at hstep
    exact absurd hstep (by simp)

end Gauntlet.Pool
