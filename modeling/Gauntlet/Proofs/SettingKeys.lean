import Gauntlet.Settings.Choice

/-! # The keys of the settings

  Most settings can be given by a flag and by a key of the settings file, and have a default. A
  `Key` tells for one of them what its sources say; `Settings.keys`, `Settings.buildKeys` and
  `Key.skipBuild` are all of them. One rule picks the value of each (`Key.picked`): the flag if it
  was given, else the file if it does not count as empty, else the default. `Settings.choose`
  follows the rule for every key (`choose_keys`, `choose_buildKeys`), so that it does not depend
  on the file where a flag was given (`choose_congr`).
-/

namespace Gauntlet

/-- The kinds of values. -/
inductive Kind where
  | text
  /-- A list of words, which a flag gives as one text. -/
  | words
  | truth
  | number
  | duration
  deriving DecidableEq, Repr

namespace Kind

/-- The values of a kind. -/
@[reducible] def Value : Kind → Type
  | text => Text
  | words => List Text
  | truth => Bool
  | number => Int
  | duration => Duration

/-- The value that counts as not given. -/
def empty : (κ : Kind) → κ.Value
  | text => []
  | words => []
  | truth => false
  | number => 0
  | duration => Duration.zero

/-- The value that a text spells. -/
def read : (κ : Kind) → Text → Option κ.Value
  | text, t => some t
  | words, t => some (Text.words t)
  | truth, t => truthOf? t
  | number, t => (Numeral.readInt t).toOption
  | duration, t => (Duration.read t).toOption

instance decidableValue : (κ : Kind) → DecidableEq κ.Value
  | text => inferInstanceAs (DecidableEq Text)
  | words => inferInstanceAs (DecidableEq (List Text))
  | truth => inferInstanceAs (DecidableEq Bool)
  | number => inferInstanceAs (DecidableEq Int)
  | duration => inferInstanceAs (DecidableEq Duration)

end Kind

/-- What the sources of a value say. -/
structure Key where
  kind : Kind
  /-- The name of the flag. -/
  name : Text
  /-- What was given explicitly. -/
  given : Given → Option kind.Value
  /-- What the file says; empty if the file has no such key. -/
  file : FileSettings → kind.Value
  default : kind.Value

namespace Key

/-- What the file says, unless it counts as not given. -/
def fromFile (k : Key) (f : FileSettings) : Option k.kind.Value :=
  if k.file f = k.kind.empty then none else some (k.file f)

/-- What was given explicitly, else what the file says, else the default. -/
def picked (k : Key) (g : Given) (f : FileSettings) : k.kind.Value :=
  ((k.given g).or (k.fromFile f)).getD k.default

/-- The key that empties the settings of the build. -/
def skipBuild : Key where
  kind := .truth
  name := "skip-build"
  given := (·.skipBuild)
  file := (·.skipBuild)
  default := false

/-- Where a flag was given, the file does not matter. -/
theorem picked_congr {k : Key} {g : Given} {f f' : FileSettings}
    (h : (k.given g).isSome ∨ k.fromFile f = k.fromFile f') : k.picked g f = k.picked g f' := by
  unfold picked
  rcases h with hgiven | hfile
  · obtain ⟨v, hv⟩ := Option.isSome_iff_exists.mp hgiven
    rw [hv]
    rfl
  · rw [hfile]

end Key

/-- A key with the place of its value among the settings. -/
structure SettingKey extends Key where
  get : Settings → kind.Value

namespace Settings

/-- The key of the time between two runs. -/
def runIntervalKey : SettingKey where
  kind := .duration
  name := "run-interval"
  given := (·.runInterval)
  file := (·.runInterval)
  default := Duration.zero
  get := (·.runInterval)

/-- The keys of the settings, but for those of the build. -/
def keys : List SettingKey := [
  { kind := .text, name := "project-dir", given := (·.projectDir), file := (·.projectDir),
    default := Default.projectDir, get := (·.projectDir) },
  { kind := .text, name := "tests-dir", given := (·.testsDir), file := (·.testsDir),
    default := Default.testsDir, get := (·.testsDir) },
  { kind := .text, name := "suffix", given := (·.suffix), file := (·.suffix),
    default := Default.suffix, get := (·.suffix) },
  { kind := .text, name := "scratch-dir", given := (·.scratchDir), file := (·.scratchDir),
    default := Default.scratchDir, get := (·.scratchDir) },
  { kind := .duration, name := "build-timeout", given := (·.buildTimeout),
    file := (·.buildTimeout), default := Duration.zero, get := (·.buildTimeout) },
  { kind := .text, name := "launcher", given := (·.launcher), file := (·.launcher),
    default := Default.launcher, get := (·.launcher) },
  { kind := .words, name := "linker", given := fun g => g.linker.map Text.words,
    file := (·.linker), default := Text.words Default.linker, get := (·.linker) },
  { kind := .duration, name := "timeout", given := (·.timeout), file := (·.timeout),
    default := Default.timeout, get := (·.timeout) },
  { kind := .number, name := "concurrency", given := (·.concurrency), file := (·.concurrency),
    default := Default.concurrency, get := (·.concurrency) },
  { kind := .text, name := "log-dir", given := (·.logDir), file := (·.logDir), default := [],
    get := (·.logDir) },
  { kind := .text, name := "report-file", given := (·.reportFile), file := (·.reportFile),
    default := [], get := (·.reportFile) },
  { kind := .truth, name := "summary-table", given := (·.summaryTable), file := (·.summaryTable),
    default := false, get := (·.summaryTable) },
  runIntervalKey,
  { kind := .text, name := "healthz.addr", given := (·.healthzAddr), file := (·.healthzAddr),
    default := [], get := (·.healthzAddr) },
  { kind := .truth, name := "metrics.enabled", given := (·.metricsEnabled), file := fun _ => false,
    default := false, get := (·.metrics.enabled) },
  { kind := .text, name := "metrics.addr", given := (·.metricsAddr), file := fun _ => [],
    default := Default.metricsAddr, get := (·.metrics.addr) },
  { kind := .number, name := "metrics.port", given := (·.metricsPort), file := fun _ => 0,
    default := Default.metricsPort, get := (·.metrics.port) }]

/-- The keys of the build, which are emptied if the build is skipped. -/
def buildKeys : List SettingKey := [
  { kind := .words, name := "build-cmd", given := fun g => g.buildCommand.map Text.words,
    file := (·.buildCommand), default := Text.words Default.buildCommand,
    get := (·.buildCommand) },
  { kind := .text, name := "archive", given := (·.archive), file := (·.archive),
    default := Default.archive, get := (·.archive) }]

/-- All keys. -/
def allKeys : List Key := Key.skipBuild :: (keys ++ buildKeys).map SettingKey.toKey

end Settings

theorem Settings.given_empty : ∀ k ∈ Settings.allKeys, k.given {} = none := by
  simp [Settings.allKeys, Settings.keys, Settings.buildKeys, Settings.runIntervalKey, Key.skipBuild]

/-! ### The rule -/

theorem chosen_eq {α : Type} [DecidableEq α] (given : Option α) (empty file default : α) :
    chosen given empty file default =
      (given.or (if file = empty then none else some file)).getD default := by
  cases given with
  | some v => rfl
  | none => by_cases h : file = empty <;> simp [chosen, h]

theorem chosenWords_eq (given : Option Text) (file : List Text) (default : Text) :
    chosenWords given file default =
      ((given.map Text.words).or (if file = [] then none else some file)).getD
        (Text.words default) := by
  cases given with
  | some t => rfl
  | none => by_cases h : file = [] <;> simp [chosenWords, h]

namespace Settings

variable (g : Given) (f : FileSettings) (positional : List Text)

theorem choose_keys : ∀ k ∈ keys, k.get (choose g f positional) = k.picked g f := by
  have hmetrics : ∀ {α : Type} (given : Option α) (default : α),
      given.getD default = (given.or none).getD default := by
    intro α given default
    rw [Option.or_none]
  simp only [keys, List.forall_mem_cons]
  refine ⟨chosen_eq .., chosen_eq .., chosen_eq .., chosen_eq .., chosen_eq .., chosen_eq ..,
    chosenWords_eq .., chosen_eq .., chosen_eq .., chosen_eq .., chosen_eq .., chosen_eq ..,
    chosen_eq .., chosen_eq .., hmetrics .., hmetrics .., hmetrics .., ?_⟩
  simp

/-- Whether the build is skipped. -/
def skipsBuild : Bool := Key.skipBuild.picked g f

theorem choose_buildKeys : ∀ k ∈ buildKeys, k.get (choose g f positional) =
    if skipsBuild g f then k.kind.empty else k.picked g f := by
  have hskip : chosen g.skipBuild false f.skipBuild false = skipsBuild g f := chosen_eq ..
  have hwords := chosenWords_eq g.buildCommand f.buildCommand Default.buildCommand
  have harchive := chosen_eq g.archive [] f.archive Default.archive
  simp only [buildKeys, List.forall_mem_cons, choose, hskip, hwords, harchive]
  exact ⟨rfl, rfl, by simp⟩

/-- The harness ends after one run if no interval was picked. -/
theorem runOnce_choose : (choose g f positional).runOnce = true ↔
    runIntervalKey.picked g f = Duration.zero := by
  have hinterval : (choose g f positional).runInterval = runIntervalKey.picked g f :=
    choose_keys g f positional runIntervalKey (by simp [keys])
  rw [← hinterval]
  exact decide_eq_true_iff

/-- Settings that agree in all keys, and in what no flag gives, are the same. -/
theorem eq_of_keys {s s' : Settings} (hkeys : ∀ k ∈ keys ++ buildKeys, k.get s = k.get s')
    (hpattern : s.pattern = s'.pattern) (hargs : s.launcherArgs = s'.launcherArgs)
    (honce : s.runOnce = s'.runOnce) : s = s' := by
  simp only [keys, buildKeys, runIntervalKey, List.cons_append, List.nil_append,
    List.forall_mem_cons] at hkeys
  rcases s with ⟨_, _, _, _, _, _, _, _, _, _, _, _, _, _, _, _, _, _, _, ⟨_, _, _⟩⟩
  rcases s' with ⟨_, _, _, _, _, _, _, _, _, _, _, _, _, _, _, _, _, _, _, ⟨_, _, _⟩⟩
  simp_all

/-- Where a flag was given, the file does not matter. -/
theorem choose_congr {f f' : FileSettings}
    (hkeys : ∀ k ∈ allKeys, (k.given g).isSome ∨ k.fromFile f = k.fromFile f')
    (hargs : f.launcherArgs = f'.launcherArgs) :
    choose g f positional = choose g f' positional := by
  have hpicked : ∀ k ∈ allKeys, k.picked g f = k.picked g f' := by
    intro k hk
    exact Key.picked_congr (hkeys k hk)
  have hsetting : ∀ k ∈ keys ++ buildKeys, k.picked g f = k.picked g f' := by
    intro k hk
    exact hpicked k.toKey (List.mem_cons_of_mem _ (List.mem_map_of_mem hk))
  have hskips : skipsBuild g f = skipsBuild g f' := hpicked Key.skipBuild List.mem_cons_self
  refine eq_of_keys ?_ rfl hargs ?_
  · intro k hk
    rcases List.mem_append.mp hk with hkey | hkey
    · rw [choose_keys _ _ _ k hkey, choose_keys _ _ _ k hkey, hsetting k hk]
    · rw [choose_buildKeys _ _ _ k hkey, choose_buildKeys _ _ _ k hkey, hskips, hsetting k hk]
  · have hinterval := hsetting runIntervalKey (by simp [keys])
    rw [Bool.eq_iff_iff, runOnce_choose, runOnce_choose, hinterval]

end Settings

end Gauntlet
