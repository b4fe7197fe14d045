import Gauntlet.Harness
import Gauntlet.Proofs.Unpack
import Gauntlet.Settings.Choice

/-! # Accepted settings can be used

  Settings are chosen, anchored and checked once, and then handed to a harness, whose parts
  have requirements and defaults of their own. The two have to fit: what `check` accepts is
  refused by none of the parts, and no part puts a default in the place of a value.

  - `Settings.Resolved`: the paths of accepted settings are absolute, and anchoring them once
    more changes nothing.
  - `Harness.Uses`: a harness works with the values of its settings.
  - The directory of the logs is the only thing that a new harness makes, and the only thing
    that it can fail to make (`create_of_complete`).
-/

namespace Gauntlet

namespace Path

/-- An absolute name in its cleaned form. -/
structure Settled (p : Text) : Prop where
  absolute : isAbsolute p = true
  clean : Path.clean p = p

theorem settled_absolute {cs : List Text} (h : Plain cs) : Settled (Path.absolute cs) := by
  have habs := isAbsolute_absolute cs
  refine ⟨habs, ?_⟩
  rw [clean_eq_absolute habs, components_absolute h]

theorem settled_clean {p : Text} (h : isAbsolute p = true) : Settled (Path.clean p) := by
  rw [clean_eq_absolute h]
  exact settled_absolute (plain_components h)

/-- What is put below an absolute name gets an absolute, cleaned name. -/
theorem Settled.join {dir : Text} (h : Settled dir) (p : Text) : Settled (Path.join [dir, p]) := by
  have hdir : dir = Path.absolute (components dir) := by
    rw [← clean_eq_absolute h.absolute, h.clean]
  rw [hdir]
  obtain ⟨cs, hplain, hjoin⟩ := join_absolute (components dir) p
  rw [hjoin]
  exact settled_absolute hplain

theorem Settled.ne_nil {p : Text} (h : Settled p) : p ≠ [] := by
  intro hnil
  have habs := h.absolute
  rw [hnil] at habs
  exact absurd habs (by decide)

end Path

/-! ### Resolved settings -/

namespace Disk

theorem absolute_settled {d : Disk} {p q : Text} (h : d.absolute p = .ok q) : Path.Settled q := by
  obtain ⟨hplain, heq⟩ := Archive.absolute_eq_ok h
  rw [heq]
  exact Path.settled_absolute hplain

theorem absolute_of_settled {q : Text} (h : Path.Settled q) (d : Disk) : d.absolute q = .ok q := by
  unfold absolute
  rw [if_pos h.absolute, h.clean]

end Disk

namespace Settings

/-- The paths of settings that are anchored at the project directory. -/
def anchoredPaths (s : Settings) : List Text :=
  [s.testsDir, s.scratchDir, s.archive, s.logDir, s.reportFile]

/-- Settings whose paths mean the same in every working directory. -/
structure Resolved (s : Settings) : Prop where
  projectDir : Path.Settled s.projectDir
  paths : ∀ p ∈ s.anchoredPaths, p ≠ [] → Path.isAbsolute p = true
  again : ∀ d, s.anchored d = .ok s

theorem anchorPath_isAbsolute {dir : Text} (hdir : Path.Settled dir) {p : Text}
    (h : anchorPath dir p ≠ []) : Path.isAbsolute (anchorPath dir p) = true := by
  unfold anchorPath at h ⊢
  split
  · rename_i hkept
    rw [if_pos hkept] at h
    exact hkept.resolve_left h
  · exact (hdir.join p).absolute

/-- A path that has been anchored stays where it is. -/
theorem anchorPath_of_absolute {dir p : Text} (h : p ≠ [] → Path.isAbsolute p = true) :
    anchorPath dir p = p := by
  unfold anchorPath
  by_cases hp : p = []
  · exact if_pos (Or.inl hp)
  · exact if_pos (Or.inr (h hp))

theorem anchoredAt_resolved (s : Settings) {dir : Text} (hdir : Path.Settled dir) :
    (s.anchoredAt dir).Resolved := by
  have hpaths : ∀ p ∈ (s.anchoredAt dir).anchoredPaths, p ≠ [] → Path.isAbsolute p = true := by
    intro p hp hne
    simp only [anchoredPaths, anchoredAt, List.mem_cons, List.not_mem_nil, or_false] at hp
    rcases hp with rfl | rfl | rfl | rfl | rfl <;> exact anchorPath_isAbsolute hdir hne
  have hfixed : ∀ p ∈ (s.anchoredAt dir).anchoredPaths, anchorPath dir p = p :=
    fun p hp => anchorPath_of_absolute (hpaths p hp)
  refine ⟨hdir, hpaths, fun d => ?_⟩
  have hgiven : (s.anchoredAt dir).givenProjectDir = dir := by
    simp [givenProjectDir, anchoredAt, hdir.ne_nil]
  simp only [anchoredPaths, List.mem_cons, List.not_mem_nil, or_false, forall_eq_or_imp,
    forall_eq] at hfixed
  obtain ⟨htests, hscratch, harchive, hlogs, hreport⟩ := hfixed
  unfold anchored
  rw [hgiven, Disk.absolute_of_settled hdir]
  dsimp only
  -- Every field is either not a path, or a path that stays.
  have hsame : (s.anchoredAt dir).anchoredAt dir = s.anchoredAt dir := by
    rw [anchoredAt, htests, hscratch, harchive, hlogs, hreport]
    rfl
  rw [hsame]

theorem resolved_of_anchored {s s' : Settings} {d : Disk} (h : s.anchored d = .ok s') :
    s'.Resolved := by
  unfold anchored at h
  split at h
  · rename_i dir hdir
    obtain rfl := Except.ok.inj h
    exact s.anchoredAt_resolved (Disk.absolute_settled hdir)
  · simp at h

/-! ### Checked settings -/

/-- What settings without a defect have. -/
structure Complete (s : Settings) : Prop where
  testsDir : s.testsDir ≠ []
  scratchDir : s.scratchDir ≠ []
  suffix : s.suffix ≠ []
  launcher : s.launcher ≠ []
  linker : s.linker ≠ []
  timeout : s.timeout.isPositive = true
  concurrency : 1 ≤ s.concurrency
  runInterval : 0 ≤ s.runInterval.toInt

theorem check_eq_none_iff (s : Settings) : s.check = none ↔ s.Complete := by
  constructor
  · intro h
    unfold check at h
    split_ifs at h with h₁ h₂ h₃ h₄ h₅ h₆ h₇ h₈
    exact ⟨h₁, h₂, h₃, h₄, h₅, by simpa using h₆, by omega, by omega⟩
  · intro h
    have hconcurrency : ¬ s.concurrency < 1 := by have := h.concurrency; omega
    have hinterval : ¬ s.runInterval.toInt < 0 := by have := h.runInterval; omega
    simp [check, h.testsDir, h.scratchDir, h.suffix, h.launcher, h.linker, h.timeout, hconcurrency,
      hinterval]

/-- Accepted settings were anchored and have no defect. -/
theorem ofGiven_eq_ok {d : Disk} {g : Given} {positional : List Text} {s : Settings}
    (h : ofGiven d g positional = .ok s) : s.Resolved ∧ s.Complete := by
  unfold ofGiven at h
  split at h
  · simp at h
  split at h
  · simp at h
  split at h
  · simp at h
  · rename_i s' hanchored
    split at h
    · simp at h
    · rename_i hcheck
      obtain rfl := Except.ok.inj h
      exact ⟨resolved_of_anchored hanchored, (check_eq_none_iff s').mp hcheck⟩

end Settings

/-! ### New harnesses -/

/-- The name under which a program is started: a name without a slash is left to the search
    path, and a path becomes absolute and clean, below a directory if it was relative. -/
inductive StartedAs (dir name : Text) : Text → Prop where
  | bare (hname : Path.slash ∉ name) : StartedAs dir name name
  | absolute (hname : Path.isAbsolute name = true) (hsettled : Path.Settled (Path.clean name)) :
      StartedAs dir name (Path.clean name)
  | relative (hname : Path.slash ∈ name) (hrelative : Path.isAbsolute name = false)
      (hsettled : Path.Settled (Path.join [dir, name])) :
      StartedAs dir name (Path.join [dir, name])

theorem executable_startedAs {dir : Text} (hdir : Path.Settled dir) (name : Text) :
    StartedAs dir name (Course.executable dir name) := by
  unfold Course.executable
  by_cases hslash : Path.slash ∈ name
  · rw [if_pos (by simpa using hslash), Path.anchor]
    cases habs : Path.isAbsolute name with
    | true => exact .absolute habs (Path.settled_clean habs)
    | false => exact .relative hslash habs (hdir.join name)
  · rw [if_neg (by simpa using hslash)]
    exact .bare hslash

namespace Harness

/-- A harness that works with the values of settings and with nothing else. -/
structure Uses (h : Harness) (s : Settings) : Prop where
  settings : h.settings = s
  build : h.build = ⟨s.buildCommand, s.projectDir, s.buildTimeout, s.archive, s.projectDir⟩
  workDir : h.course.workDir = s.projectDir
  scratchDir : h.course.scratchDir = Path.clean s.scratchDir
  launcher : StartedAs s.projectDir s.launcher h.course.launcher
  launcherArgs : h.course.launcherArgs = s.launcherArgs
  linker : ∃ name, s.linker = name :: h.course.linkerArgs ∧
    StartedAs s.projectDir name h.course.linker
  timeout : h.course.timeout = s.timeout
  logs : h.course.logs = if s.logDir = [] then none else some (LogStore.source ⟨s.logDir⟩)
  workers : (h.workers : Int) = s.concurrency

/-- The harness of settings whose paths are resolved, with given logs. -/
def assembled (s : Settings) (logs : Option LogSource) : Harness where
  settings := s
  build := buildOf s
  course := Course.ofPlanAt (courseOf s) s.projectDir logs
  workers := s.concurrency.toNat

section Creation

variable {s : Settings}

theorem defect?_buildOf (hresolved : s.Resolved) : (buildOf s).defect? = none := by
  have hdest : (buildOf s).dest ≠ [] := hresolved.projectDir.ne_nil
  unfold BuildPlan.defect?
  exact if_neg fun h => hdest h.2

theorem workers_eq (hcomplete : s.Complete) : Run.workers s.concurrency = .ok s.concurrency.toNat := by
  have hone := hcomplete.concurrency
  have hneg : ¬ s.concurrency < 0 := by omega
  have hzero : ¬ s.concurrency = 0 := by omega
  unfold Run.workers
  rw [if_neg hneg, if_neg hzero]

/-- The course of accepted settings is planned without asking for the working directory. -/
theorem ofPlan_courseOf (hresolved : s.Resolved) (hcomplete : s.Complete) (d : Disk)
    (logs : Option LogSource) :
    Course.ofPlan d (courseOf s) logs = .ok (Course.ofPlanAt (courseOf s) s.projectDir logs) := by
  unfold Course.ofPlan
  have hlauncher : (courseOf s).launcher ≠ [] := hcomplete.launcher
  have hscratch : (courseOf s).scratchDir ≠ [] := hcomplete.scratchDir
  have hwork : (courseOf s).workDir ≠ [] := hresolved.projectDir.ne_nil
  rw [if_neg hlauncher, if_neg hscratch, if_pos hwork]
  rfl

theorem assembled_uses (hresolved : s.Resolved) (hcomplete : s.Complete) {logs : Option LogSource}
    (hlogs : logs = if s.logDir = [] then none else some (LogStore.source ⟨s.logDir⟩)) :
    (assembled s logs).Uses s := by
  have hscratch : Path.isAbsolute s.scratchDir = true :=
    hresolved.paths _ (by simp [Settings.anchoredPaths]) hcomplete.scratchDir
  obtain ⟨name, args, hlinker⟩ := List.exists_cons_of_ne_nil hcomplete.linker
  refine ⟨rfl, rfl, rfl, ?_, ?_, rfl, ⟨name, ?_, ?_⟩, ?_, hlogs, ?_⟩
  · show Path.anchor s.projectDir s.scratchDir = Path.clean s.scratchDir
    rw [Path.anchor, if_pos hscratch]
  · exact executable_startedAs hresolved.projectDir s.launcher
  · show s.linker = name :: s.linker.drop 1
    rw [hlinker]
    rfl
  · have hstarted := executable_startedAs hresolved.projectDir name
    show StartedAs s.projectDir name
      (Course.executable s.projectDir (s.linker.headD Course.defaultLinker))
    rw [hlinker]
    exact hstarted
  · show (if s.timeout.isPositive = true then s.timeout else Course.defaultTimeout) = s.timeout
    rw [if_pos hcomplete.timeout]
  · have hone := hcomplete.concurrency
    show ((s.concurrency.toNat : Nat) : Int) = s.concurrency
    omega

/-- Once there are logs, or none are wanted, nothing is left that can fail. -/
theorem create_of_logs (hresolved : s.Resolved) (hcomplete : s.Complete) {d d' : Disk}
    {logs : Option LogSource} (hmade : logsOf d s = (d', .ok logs)) :
    create d s = (d', .ok (assembled s logs)) := by
  unfold create
  rw [defect?_buildOf hresolved, hmade]
  dsimp only
  rw [ofPlan_courseOf hresolved hcomplete, workers_eq hcomplete]
  rfl

/-- A new harness can only fail to make the directory of its logs. -/
theorem create_of_complete (hresolved : s.Resolved) (hcomplete : s.Complete) (d : Disk) :
    (∃ d' h, create d s = (d', .ok h) ∧ h.Uses s) ∨
    ∃ d' e, s.logDir ≠ [] ∧ d.mkdirs s.logDir 0o755 = (d', some e) ∧
      create d s = (d', .error (.wrap "failed to create test log sink"
        (some (LogStore.directoryFailure s.logDir e)))) := by
  by_cases hlogDir : s.logDir = []
  · have hlogs : logsOf d s = (d, .ok none) := by rw [logsOf, if_pos hlogDir]
    refine Or.inl ⟨d, _, create_of_logs hresolved hcomplete hlogs, ?_⟩
    exact assembled_uses hresolved hcomplete (by rw [if_pos hlogDir])
  · cases hmade : d.mkdirs s.logDir 0o755 with
    | mk d' failed =>
      cases failed with
      | none =>
        have hlogs : logsOf d s = (d', .ok (some (LogStore.source ⟨s.logDir⟩))) := by
          simp [logsOf, hlogDir, LogStore.create, hmade]
        refine Or.inl ⟨d', _, create_of_logs hresolved hcomplete hlogs, ?_⟩
        exact assembled_uses hresolved hcomplete (by rw [if_neg hlogDir])
      | some e =>
        have hlogs : logsOf d s = (d', .error (LogStore.directoryFailure s.logDir e)) := by
          simp [logsOf, hlogDir, LogStore.create, hmade]
        refine Or.inr ⟨d', e, hlogDir, rfl, ?_⟩
        unfold create
        rw [defect?_buildOf hresolved, hlogs]

end Creation

end Harness

/-- Settings that are accepted can be used as they are, whatever flags, environment and file
    gave. Their paths are resolved for good, and a harness of them works with their values,
    unless the directory of its logs cannot be made. -/
theorem Settings.accepted_usable (d : Disk) (g : Given) (positional : List Text) (s : Settings)
    (h : Settings.ofGiven d g positional = .ok s) :
    s.Resolved ∧ ∀ d₀,
      (∃ d' h, Harness.createFrom d₀ (some s) true = (d', .ok h) ∧ h.Uses s) ∨
      ∃ d' e, s.logDir ≠ [] ∧ d₀.mkdirs s.logDir 0o755 = (d', some e) ∧
        Harness.createFrom d₀ (some s) true =
          (d', .error (.wrap "failed to create test log sink"
            (some (LogStore.directoryFailure s.logDir e)))) := by
  obtain ⟨hresolved, hcomplete⟩ := ofGiven_eq_ok h
  refine ⟨hresolved, fun d₀ => ?_⟩
  exact Harness.create_of_complete hresolved hcomplete d₀

/-! ### A sample -/

namespace Sample

/-- A disk with a working directory `/w`. -/
def workplace : Disk where
  nodes := (SortedMap.empty.insert [] (.dir 0o755 ⟨0, 0⟩)).insert [("w" : Text)]
    (.dir 0o755 ⟨0, 0⟩)
  cwd := some [("w" : Text)]
  now := ⟨1, 0⟩

/-- Flags with relative paths in them. -/
def relativeFlags : Given where
  projectDir := some "p/.."
  scratchDir := some "../s//t"
  launcher := some "./l"
  linker := some "cc -O2 -g"
  logDir := some "logs"
  concurrency := some 3

/-- What the flags come to. -/
def relativeSettings : Settings :=
  (Settings.choose relativeFlags {} []).anchoredAt "/w"

theorem accepted_usable_relative :
    Settings.ofGiven workplace relativeFlags [] = .ok relativeSettings ∧
    relativeSettings.scratchDir = "/s/t" ∧ relativeSettings.Resolved ∧
    ∃ d h, Harness.createFrom workplace (some relativeSettings) true = (d, .ok h) ∧
      h.Uses relativeSettings := by
  have haccepted : Settings.ofGiven workplace relativeFlags [] = .ok relativeSettings := by rfl
  obtain ⟨hresolved, hcreate⟩ :=
    Settings.accepted_usable workplace relativeFlags [] relativeSettings haccepted
  refine ⟨haccepted, by decide +kernel, hresolved, ?_⟩
  rcases hcreate workplace with ⟨d, h, hmade, huses⟩ | ⟨d, e, _, hmkdirs, _⟩
  · exact ⟨d, h, hmade, huses⟩
  · have hnone : (workplace.mkdirs relativeSettings.logDir 0o755).2 = none := by decide +kernel
    rw [hmkdirs] at hnone
    exact absurd hnone (by simp)

end Sample

end Gauntlet
