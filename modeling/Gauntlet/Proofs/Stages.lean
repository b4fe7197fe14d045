import Gauntlet.Course

/-! # The stages of a course

  What taking a case through the stages leaves behind, whatever the toolchain does.
  The key notion is `Passage`: a derivation that follows the stages one by one and
  ties the records to the commands.

  - A stage that is performed leaves a record of how its command ended, and issues
    that command.
  - A stage that is hindered leaves a record of why, and issues nothing.
  - Only a stage that passed is followed by another one.

  The toolchain is an arbitrary function with an arbitrary memory, so it may answer
  every command in any way and change the disk at will. It may also cancel the run.
  Whether the run is cancelled is looked at once before each stage, so a run that is
  cancelled before the first command, or by the time a command has ended, covers
  every moment at which a cancellation can be noticed.
-/

namespace Gauntlet

/-! ### What leaves the issued commands alone -/

namespace World

variable {σ : Type}

@[simp] theorem issued_withDisk (w : World σ) (d : Disk) : (w.withDisk d).issued = w.issued := rfl

@[simp] theorem issued_ended (w : World σ) (s : Span) : (w.ended s).issued = w.issued := rfl

@[simp] theorem issued_measured (w : World σ) (f : Metrics → Metrics) :
    (w.measured f).issued = w.issued := rfl

theorem issued_takeOutput (w : World σ) (log : Option CaseLog) (pieces : List (Channel × Text)) :
    (w.takeOutput log pieces).1.issued = w.issued := by
  induction pieces generalizing w log with
  | nil => rfl
  | cons p rest ih =>
    obtain ⟨ch, piece⟩ := p
    cases log with
    | none =>
      simp only [takeOutput]
      rw [ih]
    | some l =>
      simp only [takeOutput]
      rw [ih, issued_withDisk]

theorem isSome_takeOutput (w : World σ) (log : Option CaseLog) (pieces : List (Channel × Text)) :
    (w.takeOutput log pieces).2.isSome = log.isSome := by
  induction pieces generalizing w log with
  | nil => rfl
  | cons p rest ih =>
    obtain ⟨ch, piece⟩ := p
    cases log with
    | none =>
      simp only [takeOutput]
      rw [ih]
    | some l =>
      simp only [takeOutput]
      rw [ih]
      rfl

theorem issued_issue (w : World σ) (tools : Toolchain σ) (log : Option CaseLog) (cmd : Command) :
    (w.issue tools log cmd).2.1.issued = w.issued ++ [cmd] := by
  simp only [issue]
  rw [issued_takeOutput]

theorem isSome_issue (w : World σ) (tools : Toolchain σ) (log : Option CaseLog) (cmd : Command) :
    (w.issue tools log cmd).2.2.isSome = log.isSome := by
  simp only [issue]
  rw [isSome_takeOutput]

theorem disk_takeOutput_none (w : World σ) (pieces : List (Channel × Text)) :
    (w.takeOutput none pieces).1.disk = w.disk := by
  induction pieces generalizing w with
  | nil => rfl
  | cons piece rest ih =>
    simp only [takeOutput]
    rw [ih]
    rfl

theorem disk_issue_none (w : World σ) (tools : Toolchain σ) (c : Command) :
    (w.issue tools none c).2.1.disk = (tools c w.memory w.machine).machine.disk := by
  simp only [issue]
  rw [disk_takeOutput_none]
  rfl

end World

namespace Course

variable {σ : Type}

theorem issued_beginSection (s : Stage) (w : World σ) (log : Option CaseLog) :
    (beginSection s w log).1.issued = w.issued := by
  cases log <;> rfl

theorem isSome_beginSection (s : Stage) (w : World σ) (log : Option CaseLog) :
    (beginSection s w log).2.isSome = log.isSome := by
  cases log <;> rfl

theorem issued_openLog (c : Course) (run : Text) (case : Case) (w : World σ) :
    (c.openLog run case w).1.issued = w.issued := by
  unfold openLog
  split
  · rfl
  · split <;> rfl

theorem issued_closeLog (w : World σ) (log : Option CaseLog) :
    (closeLog w log).issued = w.issued := by
  cases log <;> rfl

theorem issued_finish (r : CaseResult) (w : World σ) : (finish r w).2.issued = w.issued := rfl

/-! ### Passages -/

/-- The command of a stage as it is issued: its output is captured if there is a log. -/
def issuedCommand (c : Course) (case : Case) (captured : Bool) (s : Stage) : Command :=
  { c.stageCommand case s with captured }

/-- What performing a stage comes to, once its command has been issued. -/
theorem perform_of_issue (c : Course) {tools : Toolchain σ} {case : Case} {s : Stage} {w : World σ}
    {log : Option CaseLog} {x : Ending × World σ × Option CaseLog}
    (hx : (beginSection s w log).1.issue tools (beginSection s w log).2
      (c.issuedCommand case log.isSome s) = x) :
    c.perform tools case s w log =
      (performedRecord s (c.issuedCommand case log.isSome s) x.1,
        x.2.1.ended (performedSpan case
          (performedRecord s (c.issuedCommand case log.isSome s) x.1)), x.2.2) := by
  rw [← isSome_beginSection s w log] at hx ⊢
  rw [← hx]
  rfl

/-- A case whose artifacts could be cleared is taken through the stages. -/
theorem run_cleared (c : Course) (tools : Toolchain σ) (id : Text) {case : Case} {w : World σ}
    {d : Disk} (hclean : (c.artifacts case).clean w.disk = (d, none))
    {x : List StageRecord × World σ × Option CaseLog}
    (hx : c.runStages tools case Stage.all (c.openLog id case (w.withDisk d)).1
      (c.openLog id case (w.withDisk d)).2 = x) :
    c.run tools id case w = finish (resultOf case x.1) (closeLog x.2.1 x.2.2) := by
  unfold run
  rw [hclean]
  dsimp only
  rw [hx]

/-- A case whose artifacts could not be cleared fails at once. -/
theorem run_stuck (c : Course) (tools : Toolchain σ) (id : Text) {case : Case} {w : World σ}
    {d : Disk} {f : Failure} (hclean : (c.artifacts case).clean w.disk = (d, some f)) :
    c.run tools id case w =
      finish (resultOf case [hinderedRecord .interpret f]) (w.withDisk d) := by
  unfold run
  rw [hclean]

/-- Why a stage of a case is not performed. -/
inductive Reason (a : Artifacts) : Stage → Failure → Prop where
  /-- An artifact of an earlier run could not be removed. -/
  | stale (p : Text) (hp : p = a.assembly ∨ p = a.binary) (e : OsError) :
      Reason a .interpret (Artifacts.staleFailure p e)
  /-- The run has been cancelled. -/
  | cancelled (s : Stage) : Reason a s cancellation
  /-- There is no assembly to link. -/
  | missing (e : OsError) : Reason a .link (missingAssembly a.assembly e)

/-- How stages go one after the other, with the records they leave and the commands
    they issue. -/
inductive Passage (command : Stage → Command) (reason : Stage → Failure → Prop) :
    List Stage → List StageRecord → List Command → Prop where
  /-- There is no stage left. -/
  | done : Passage command reason [] [] []
  /-- The stage is performed and passes, and the others follow. -/
  | passed {s : Stage} {rest : List Stage} {rs : List StageRecord} {cs : List Command} (e : Ending)
      (hp : (performedRecord s (command s) e).passed = true)
      (h : Passage command reason rest rs cs) :
      Passage command reason (s :: rest) (performedRecord s (command s) e :: rs) (command s :: cs)
  /-- The stage is performed and fails. -/
  | failed {s : Stage} {rest : List Stage} (e : Ending)
      (hp : (performedRecord s (command s) e).passed = false) :
      Passage command reason (s :: rest) [performedRecord s (command s) e] [command s]
  /-- The stage cannot be performed. -/
  | hindered {s : Stage} {rest : List Stage} (f : Failure) (hf : reason s f) :
      Passage command reason (s :: rest) [hinderedRecord s f] []

theorem passed_hinderedRecord (s : Stage) (f : Failure) :
    (hinderedRecord s f).passed = false := rfl

namespace Passage

variable {command : Stage → Command} {reason : Stage → Failure → Prop} {stages : List Stage}
  {rs : List StageRecord} {cs : List Command}

theorem records_ne_nil (h : Passage command reason stages rs cs) (hs : stages ≠ []) : rs ≠ [] := by
  cases h with
  | done => exact absurd rfl hs
  | passed e hp h => simp
  | failed e hp => simp
  | hindered f hf => simp

/-- The records are those of the first stages, in order. -/
theorem stages_prefix (h : Passage command reason stages rs cs) :
    rs.map StageRecord.stage <+: stages := by
  induction h with
  | done => exact List.prefix_rfl
  | passed e hp h ih =>
    rw [List.map_cons]
    exact List.cons_prefix_cons.mpr ⟨rfl, ih⟩
  | failed e hp => exact ⟨_, rfl⟩
  | hindered f hf => exact ⟨_, rfl⟩

/-- Either every stage passed and left a record, or the last record is of a stage that
    failed after all others had passed. -/
theorem all_or_last (h : Passage command reason stages rs cs) :
    (rs.map StageRecord.stage = stages ∧ ∀ r ∈ rs, r.passed = true) ∨
    ∃ front last, rs = front ++ [last] ∧ (∀ r ∈ front, r.passed = true) ∧ last.passed = false := by
  induction h with
  | done => exact Or.inl ⟨rfl, by simp⟩
  | @passed s rest rs cs e hp h ih =>
    rcases ih with ⟨hall, hpass⟩ | ⟨front, last, rfl, hfront, hlast⟩
    · refine Or.inl ⟨by rw [List.map_cons, hall]; rfl, ?_⟩
      intro r hr
      rcases List.mem_cons.mp hr with rfl | hr
      · exact hp
      · exact hpass r hr
    · refine Or.inr ⟨performedRecord s (command s) e :: front, last, rfl, ?_, hlast⟩
      intro r hr
      rcases List.mem_cons.mp hr with rfl | hr
      · exact hp
      · exact hfront r hr
  | failed e hp => exact Or.inr ⟨[], _, rfl, by simp, hp⟩
  | hindered f hf => exact Or.inr ⟨[], _, rfl, by simp, passed_hinderedRecord _ f⟩

/-- The commands are those of the first stages. Every record has its command, except
    that the last one may be of a stage that was hindered. -/
theorem commands_eq (h : Passage command reason stages rs cs) :
    cs = (stages.take cs.length).map command ∧ cs.length ≤ rs.length ∧
      rs.length ≤ cs.length + 1 ∧
      (cs.length < rs.length → ∃ s f, reason s f ∧ rs.getLast? = some (hinderedRecord s f)) := by
  induction h with
  | done => simp
  | @passed s rest rs cs e hp h ih =>
    obtain ⟨hcs, hle, hge, hlast⟩ := ih
    refine ⟨?_, by simpa using hle, by simpa using hge, ?_⟩
    · rw [List.length_cons, List.take_succ_cons, List.map_cons, ← hcs]
    · intro hlength
      obtain ⟨s', f, hf, hl⟩ := hlast (by simpa using hlength)
      exact ⟨s', f, hf, by rw [List.getLast?_cons, hl]; rfl⟩
  | failed e hp => simp
  | @hindered s rest f hf => exact ⟨rfl, by simp, by simp, fun _ => ⟨s, f, hf, rfl⟩⟩

end Passage

/-! ### Running the stages -/

/-- A hindrance is a cancelled run, or a link stage without assembly. -/
theorem reason_of_hindrance {c : Course} {case : Case} {s : Stage} {m : Machine} {h : Hindrance}
    (hh : c.hindrance? case s m = some h) : Reason (c.artifacts case) s h.failure := by
  unfold hindrance? at hh
  split at hh
  · obtain rfl : Hindrance.cancelled = h := by simpa using hh
    exact .cancelled s
  · split at hh
    · rename_i hs
      subst hs
      dsimp only at hh
      split at hh
      · exact absurd hh (by simp)
      · rename_i e _
        obtain rfl := Option.some.inj hh
        exact .missing e
    · exact absurd hh (by simp)

/-- One stage is performed, and then its command is issued and its record tells how it
    ended, or it is hindered. The log stays a log. -/
theorem runStage_cases (c : Course) (tools : Toolchain σ) (case : Case) (s : Stage) (w : World σ)
    (log : Option CaseLog) :
    (c.runStage tools case s w log).2.2.isSome = log.isSome ∧
    ((c.hindrance? case s w.machine = none ∧
      ∃ e, (c.runStage tools case s w log).1 =
          performedRecord s (c.issuedCommand case log.isSome s) e ∧
        (c.runStage tools case s w log).2.1.issued =
          w.issued ++ [c.issuedCommand case log.isSome s]) ∨
      ∃ h, c.hindrance? case s w.machine = some h ∧
        (c.runStage tools case s w log).1 = hinderedRecord s h.failure ∧
        (c.runStage tools case s w log).2.1.issued = w.issued) := by
  unfold runStage
  split
  · rename_i h hh
    exact ⟨rfl, Or.inr ⟨h, hh, rfl, rfl⟩⟩
  · rename_i hh
    have hsome := isSome_beginSection s w log
    have hissued := issued_beginSection s w log
    simp only [perform, World.issued_ended, World.issued_issue, World.isSome_issue, hsome, hissued]
    exact ⟨trivial, Or.inl ⟨hh, _, rfl, rfl⟩⟩

/-- The stages go as a passage does, and issue its commands. -/
theorem runStages_passage (c : Course) (tools : Toolchain σ) (case : Case) (stages : List Stage)
    (w : World σ) (log : Option CaseLog) :
    ∃ cs, Passage (c.issuedCommand case log.isSome) (Reason (c.artifacts case)) stages
        (c.runStages tools case stages w log).1 cs ∧
      (c.runStages tools case stages w log).2.1.issued = w.issued ++ cs ∧
      ∀ s ∈ stages.head?, cs = [] ↔ (c.hindrance? case s w.machine).isSome = true := by
  induction stages generalizing w log with
  | nil => exact ⟨[], .done, by simp [runStages], by simp⟩
  | cons s rest ih =>
    obtain ⟨hlog, hstage⟩ := c.runStage_cases tools case s w log
    simp only [runStages, List.head?_cons, Option.mem_def, Option.some.injEq, forall_eq']
    -- The record of the first stage decides how the passage goes on.
    rcases hstage with ⟨hnone, e, hrecord, hissued⟩ | ⟨h, hsome, hrecord, hissued⟩
    · rw [hrecord, hnone]
      by_cases hp : (performedRecord s (c.issuedCommand case log.isSome s) e).passed = true
      · rw [if_pos hp]
        obtain ⟨cs, hpassage, hrest, _⟩ := ih
          ((c.runStage tools case s w log).2.1.measured fun m =>
            m.recordStage s true
              (performedRecord s (c.issuedCommand case log.isSome s) e).duration)
          (c.runStage tools case s w log).2.2
        rw [hlog] at hpassage
        rw [World.issued_measured, hissued, List.append_assoc] at hrest
        exact ⟨c.issuedCommand case log.isSome s :: cs, .passed e hp (by rw [hp]; exact hpassage),
          by rw [hp]; exact hrest, by simp⟩
      · rw [if_neg hp]
        exact ⟨[c.issuedCommand case log.isSome s], .failed e (by simpa using hp), hissued, by simp⟩
    · rw [hrecord, hsome, passed_hinderedRecord, if_neg Bool.false_ne_true]
      exact ⟨[], .hindered h.failure (reason_of_hindrance hsome), by simpa using hissued, by simp⟩

/-- Clearing a path fails with the error of the path. -/
theorem eq_staleFailure_of_discard {d : Disk} {p : Text} {f : Failure}
    (h : Artifacts.discard d p = .error f) : ∃ e, f = Artifacts.staleFailure p e := by
  unfold Artifacts.discard at h
  split at h
  · exact absurd h (by simp)
  · rename_i e _
    split at h
    · exact absurd h (by simp)
    · exact ⟨e, (Except.error.inj h).symm⟩

/-- If clearing the artifacts fails, the failure names the one that is in the way. -/
theorem reason_of_clean {a : Artifacts} {d d' : Disk} {f : Failure}
    (h : a.clean d = (d', some f)) : Reason a .interpret f := by
  unfold Artifacts.clean at h
  split at h
  · rename_i g hg
    obtain ⟨e, rfl⟩ := eq_staleFailure_of_discard hg
    obtain rfl := Option.some.inj (congrArg Prod.snd h)
    exact .stale _ (Or.inl rfl) e
  · split at h
    · rename_i g hg
      obtain ⟨e, rfl⟩ := eq_staleFailure_of_discard hg
      obtain rfl := Option.some.inj (congrArg Prod.snd h)
      exact .stale _ (Or.inr rfl) e
    · exact absurd (congrArg Prod.snd h) (by simp)

theorem cancelled_openLog (c : Course) (run : Text) (case : Case) (w : World σ) :
    (c.openLog run case w).1.machine.cancelled = w.machine.cancelled := by
  unfold openLog
  split
  · rfl
  · split <;> rfl

/-- The first stage is hindered by a cancellation only. -/
theorem hindrance_interpret (c : Course) (case : Case) (m : Machine) :
    (c.hindrance? case .interpret m).isSome = m.cancelled := by
  unfold hindrance?
  cases hc : m.cancelled with
  | true => rfl
  | false => rfl

/-- A case goes through the stages as a passage does, and nothing else issues a
    command. A case whose artifacts cannot be removed is hindered at once. -/
theorem run_passage (c : Course) (tools : Toolchain σ) (id : Text) (case : Case) (w : World σ) :
    ∃ captured rs cs,
      Passage (c.issuedCommand case captured) (Reason (c.artifacts case)) Stage.all rs cs ∧
      (c.run tools id case w).1 = resultOf case rs ∧
      (c.run tools id case w).2.issued = w.issued ++ cs ∧
      (cs = [] ↔ ((c.artifacts case).clean w.disk).2.isSome = true ∨
        w.machine.cancelled = true) := by
  unfold run
  split
  · rename_i d f hclean
    refine ⟨false, _, [], .hindered f (reason_of_clean hclean), rfl, by simp [issued_finish], ?_⟩
    simp [hclean]
  · rename_i d hclean
    obtain ⟨cs, hpassage, hissued, hfirst⟩ := c.runStages_passage tools case Stage.all
      (c.openLog id case (w.withDisk d)).1 (c.openLog id case (w.withDisk d)).2
    refine ⟨_, _, cs, hpassage, rfl, ?_, ?_⟩
    · rw [issued_finish, issued_closeLog, hissued, issued_openLog, World.issued_withDisk]
    · rw [hfirst .interpret rfl, hindrance_interpret, cancelled_openLog, hclean]
      simp [World.withDisk]

/-! ### Results -/

/-- The records of a result and its verdict tell the same story: the stages were begun
    in order, only the last of them can have failed, and the verdict names it. -/
structure Orderly (r : CaseResult) : Prop where
  begun : r.stages ≠ []
  inOrder : r.stages.map StageRecord.stage <+: Stage.all
  onlyLastFails : ∀ q ∈ r.stages.dropLast, q.passed = true
  passes : r.verdict = .pass ↔
    r.stages.map StageRecord.stage = Stage.all ∧ ∀ q ∈ r.stages, q.passed = true
  fails : r.verdict ≠ .pass →
    ∃ last, r.stages.getLast? = some last ∧ last.passed = false ∧
      r.verdict = .failedAt last.stage
  found : ∀ q, r.failedStage? = some q ↔ r.verdict ≠ .pass ∧ r.stages.getLast? = some q

theorem verdictOf_failed (front : List StageRecord) {last : StageRecord}
    (h : last.passed = false) : verdictOf (front ++ [last]) = .failedAt last.stage := by
  simp [verdictOf, h]

theorem verdictOf_passed {rs : List StageRecord} (h : ∀ r ∈ rs, r.passed = true) :
    verdictOf rs = .pass := by
  unfold verdictOf
  split
  · rename_i r hr
    rw [if_pos (h r (List.mem_of_getLast? hr))]
  · rfl

theorem Passage.orderly {command : Stage → Command} {reason : Stage → Failure → Prop}
    {rs : List StageRecord} {cs : List Command}
    (h : Passage command reason Stage.all rs cs) (case : Case) : Orderly (resultOf case rs) := by
  have hne : rs ≠ [] := h.records_ne_nil (by simp [Stage.all])
  rcases h.all_or_last with ⟨hall, hpass⟩ | ⟨front, last, rfl, hfront, hlast⟩
  · have hv : (resultOf case rs).verdict = .pass := verdictOf_passed hpass
    exact {
      begun := hne
      inOrder := h.stages_prefix
      onlyLastFails := fun q hq => hpass q ((List.dropLast_subset rs) hq)
      passes := ⟨fun _ => ⟨hall, hpass⟩, fun _ => hv⟩
      fails := fun hf => absurd hv hf
      found := by
        intro q
        simp only [CaseResult.failedStage?, hv]
        simp }
  · have hv : (resultOf case (front ++ [last])).verdict = .failedAt last.stage :=
      verdictOf_failed front hlast
    have hl : (resultOf case (front ++ [last])).stages.getLast? = some last :=
      List.getLast?_concat
    exact {
      begun := hne
      inOrder := h.stages_prefix
      onlyLastFails := by
        intro q hq
        rw [show (resultOf case (front ++ [last])).stages.dropLast = front from
          List.dropLast_concat] at hq
        exact hfront q hq
      passes := by
        rw [hv]
        constructor
        · intro hf
          exact absurd hf (by simp)
        · rintro ⟨_, hp⟩
          have := hp last (List.mem_append_right front (List.mem_singleton_self last))
          rw [hlast] at this
          exact absurd this Bool.false_ne_true
      fails := fun _ => ⟨last, hl, hlast, hv⟩
      found := by
        intro q
        simp only [CaseResult.failedStage?, hv, hl, if_true]
        simp }

theorem map_issuedCommand_all (c : Course) (case : Case) (captured : Bool) :
    Stage.all.map (c.issuedCommand case captured) =
      [{ program := c.launcher, args := c.launcherArgs ++ [case.source],
         dir := c.workDir, timeout := c.timeout, captured },
       { program := c.linker,
         args := c.linkerArgs ++
           [(c.artifacts case).assembly, "-o", (c.artifacts case).binary],
         dir := c.workDir, timeout := c.timeout, captured },
       { program := (c.artifacts case).binary, args := [],
         dir := c.workDir, timeout := c.timeout, captured }] := by
  rfl

end Course

end Gauntlet
