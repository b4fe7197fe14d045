import Gauntlet.Proofs.Artifacts
import Gauntlet.Proofs.Calls

/-! # Leftovers of earlier runs

  A case clears its artifacts before it runs, so what an earlier run has left in their place
  has no influence on it. Two facts make this precise.

  - The launcher is called when neither artifact is there, and the linker is called only if
    that call has made the assembly (`run_fresh`).
  - On two disks that differ in leftovers only, a case runs in the same way
    (`leftovers_do_not_matter`).

  Both have their limits (`leftovers_can_matter`). A leftover that may not be removed makes
  the case fail. One that has been removed can still be told from the change time of its
  directory. A leftover may also lie on the way to the other one, and a log may be written to
  the place of an artifact.
-/

namespace Gauntlet

/-! ### What the toolchain sees -/

/-- Logs whose opening for a case does not bring an artifact of the case into being. -/
def LogSource.Spares (logs : LogSource) (run : Text) (case : Case) (a : Artifacts) (d : Disk) :
    Prop :=
  ∀ p ∈ a.paths, d.Lacks p → (logs run case d).1.Lacks p

instance (logs : LogSource) (run : Text) (case : Case) (a : Artifacts) (d : Disk) :
    Decidable (logs.Spares run case a d) :=
  inferInstanceAs (Decidable (∀ p ∈ a.paths, d.Lacks p → (logs run case d).1.Lacks p))

namespace Course

variable {σ : Type}

/-- What the calls of a case see of its artifacts: none of them is there when the launcher is
    called, and the linker is called only if that call has made the assembly. -/
structure Fresh (c : Course) (case : Case) (calls : List Call) : Prop where
  inOrder : ∃ captured k,
    calls.map Call.command = (Stage.all.map (c.issuedCommand case captured)).take k
  launched : ∀ k ∈ calls.head?, ∀ p ∈ (c.artifacts case).paths, k.before.Lacks p
  linked : 1 < calls.length →
    ∀ k ∈ calls.head?, ∃ r, k.after.stat (c.artifacts case).assembly = .ok r

theorem lacks_congr {d d' : Disk} (h : Disk.SameLayout d d') {p : Text} (hd : d.Lacks p) :
    d'.Lacks p := by
  rcases Disk.find_congr h false p with ⟨l, n, _, hok, _⟩ | ⟨e, he, he'⟩
  · exact absurd (hd.symm.trans hok) (by simp)
  · rw [Disk.Lacks, he', ← he]
    exact hd

/-- Linking is not hindered only if the assembly is there. -/
theorem stat_of_hindrance {c : Course} {case : Case} {m : Machine}
    (h : c.hindrance? case .link m = none) :
    ∃ r, m.disk.stat (c.artifacts case).assembly = .ok r := by
  unfold hindrance? at h
  split at h
  · simp at h
  rw [if_pos rfl] at h
  dsimp only at h
  split at h
  · exact ⟨_, ‹_›⟩
  · simp at h

theorem stat_congr {d d' : Disk} (h : Disk.SameLayout d d') {p : Text}
    (hd' : ∃ r, d'.stat p = .ok r) : ∃ r, d.stat p = .ok r := by
  unfold Disk.stat at hd' ⊢
  rcases Disk.find_congr h true p with ⟨l, n, n', hn, _⟩ | ⟨e, _, he'⟩
  · exact ⟨(l, n), by rw [hn]; rfl⟩
  · obtain ⟨r, hr⟩ := hd'
    rw [he'] at hr
    exact absurd hr (by simp [Except.mapError])

/-- The calls of the stages, from a disk without the artifacts. -/
theorem runStages_fresh (c : Course) (tools : Toolchain σ) (case : Case)
    {w : World (σ × List Call)} (log : Option CaseLog) (hnone : w.memory.2 = [])
    (hlacks : ∀ p ∈ (c.artifacts case).paths, w.disk.Lacks p) :
    (∀ k ∈ (c.runStages tools.noted case Stage.all w log).2.1.memory.2.head?,
      ∀ p ∈ (c.artifacts case).paths, k.before.Lacks p) ∧
    (1 < (c.runStages tools.noted case Stage.all w log).2.1.memory.2.length →
      ∀ k ∈ (c.runStages tools.noted case Stage.all w log).2.1.memory.2.head?,
        ∃ r, k.after.stat (c.artifacts case).assembly = .ok r) := by
  rw [Stage.all, runStages]
  dsimp only
  rcases c.runStage_calls tools case .interpret w log with
    ⟨hfailed, hm, _⟩ | ⟨_, k, hm, _, _, hbefore, hafter⟩
  · rw [if_neg (by simp [hfailed])]
    simp [World.measured, hm, hnone]
  · rw [hnone, List.nil_append] at hm
    have hlaunched : ∀ p ∈ (c.artifacts case).paths, k.before.Lacks p :=
      fun p hp => lacks_congr hbefore (hlacks p hp)
    split
    · -- The launcher has passed, and linking makes a call only if nothing hinders it.
      generalize hw : (c.runStage tools.noted case .interpret w log).2.1.measured _ = w'
      have hdisk : Disk.SameLayout k.after w'.disk := by
        rw [← hw]
        exact hafter
      have hm' : w'.memory.2 = [k] := by
        rw [← hw]
        exact hm
      obtain ⟨calls, hcalls, _, _, hlink⟩ := c.runStages_calls tools case [.link, .execute] w'
        (c.runStage tools.noted case .interpret w log).2.2
      rw [hm', List.singleton_append] at hcalls
      dsimp only
      rw [hcalls]
      refine ⟨by simpa using hlaunched, fun hlength => ?_⟩
      have hne : calls ≠ [] := by
        rintro rfl
        simp at hlength
      have hstat := stat_of_hindrance (hlink hne .link rfl)
      simpa using stat_congr hdisk hstat
    · simp only [World.measured, hm]
      exact ⟨by simpa using hlaunched, by simp⟩

/-- Opening the log of a case leaves the artifacts missing. -/
theorem openLog_lacks (c : Course) (run : Text) (case : Case) {w : World σ}
    (hlogs : ∀ logs ∈ c.logs, logs.Spares run case (c.artifacts case) w.disk)
    (hlacks : ∀ p ∈ (c.artifacts case).paths, w.disk.Lacks p) :
    ∀ p ∈ (c.artifacts case).paths, (c.openLog run case w).1.disk.Lacks p := by
  unfold openLog
  cases hsource : c.logs with
  | none => exact hlacks
  | some source =>
    have hopened : ∀ p ∈ (c.artifacts case).paths, (source run case w.disk).1.Lacks p :=
      fun p hp => hlogs source hsource p hp (hlacks p hp)
    dsimp only
    generalize source run case w.disk = r at hopened ⊢
    rcases r with ⟨d, _ | _⟩ <;> exact hopened

/-- Every call of a case is made on artifacts that are missing or its own. -/
theorem run_fresh (c : Course) (tools : Toolchain σ) (id : Text) (case : Case) (w : World σ)
    (hlogs : ∀ logs ∈ c.logs, logs.Spares id case (c.artifacts case)
      ((c.artifacts case).clean w.disk).1) :
    Fresh c case (c.run tools.noted id case w.noting).2.memory.2 := by
  obtain ⟨captured, rs, hpassage, _⟩ := c.run_noted tools id case w
  have hcommands := hpassage.commands_eq.1
  rw [List.map_take] at hcommands
  suffices hseen : (∀ k ∈ (c.run tools.noted id case w.noting).2.memory.2.head?,
        ∀ p ∈ (c.artifacts case).paths, k.before.Lacks p) ∧
      (1 < (c.run tools.noted id case w.noting).2.memory.2.length →
        ∀ k ∈ (c.run tools.noted id case w.noting).2.memory.2.head?,
          ∃ r, k.after.stat (c.artifacts case).assembly = .ok r) from
    ⟨⟨captured, _, hcommands⟩, hseen.1, hseen.2⟩
  -- What the calls see is followed from the clearing through the stages.
  unfold run
  rw [show w.noting.disk = w.disk from rfl]
  cases hclean : (c.artifacts case).clean w.disk with
  | mk d failed =>
    cases failed with
    | some f => simp [memory_finish, memory_withDisk, World.noting]
    | none =>
      have hlacks : ∀ p ∈ (c.artifacts case).paths, d.Lacks p :=
        Artifacts.lacks_of_clean (Artifacts.siblings_ofCase _ case) hclean
      rw [hclean] at hlogs
      have hopened := c.openLog_lacks id case (w := w.noting.withDisk d) hlogs hlacks
      dsimp only
      rw [memory_finish, memory_closeLog]
      exact c.runStages_fresh tools case _ (by rw [memory_openLog]; rfl) hopened

/-! ### Two runs -/

/-- **Leftovers do not matter.** Whatever the toolchain, a case calls the launcher when
    neither of its artifacts is there, and the linker only if that call has made the
    assembly. On disks that differ in leftovers only, where these can be removed, it comes to
    the same result, issues the same commands and ends on the same disk if there is a leftover
    on both of them or on neither. If there is one on one of them only, then the directory of
    the artifacts may differ in its change time; but that is all, as long as neither the
    toolchain nor the log looks at this time. -/
theorem leftovers_do_not_matter (c : Course) (tools : Toolchain σ) (id : Text) (case : Case)
    (w : World σ) :
    (c.run tools id case w = ((c.run tools.noted id case w.noting).1,
        (c.run tools.noted id case w.noting).2.unnoted) ∧
      ((∀ logs ∈ c.logs, logs.Spares id case (c.artifacts case)
          ((c.artifacts case).clean w.disk).1) →
        Fresh c case (c.run tools.noted id case w.noting).2.memory.2)) ∧
    ∀ d₀ d₁ d₂ : Disk, (c.artifacts case).Clear d₀ →
      Disk.SameBut ((c.artifacts case).places d₀) d₀ d₁ →
      Disk.SameBut ((c.artifacts case).places d₀) d₀ d₂ →
      (∀ x ∈ (c.artifacts case).places d₀, d₀.changeable x.dropLast = true) →
      ((c.artifacts case).leftover d₀ d₁ = (c.artifacts case).leftover d₀ d₂ →
        c.run tools id case (w.withDisk d₁) = c.run tools id case (w.withDisk d₂)) ∧
      (tools.Heedless [(c.artifacts case).directory d₀] →
        (∀ logs ∈ c.logs, logs.Heedless [(c.artifacts case).directory d₀]) →
        (c.run tools id case (w.withDisk d₁)).1 = (c.run tools id case (w.withDisk d₂)).1 ∧
        World.Alike [(c.artifacts case).directory d₀]
          (c.run tools id case (w.withDisk d₁)).2 (c.run tools id case (w.withDisk d₂)).2) := by
  refine ⟨⟨c.run_unnoted tools id case w.noting, c.run_fresh tools id case w⟩, ?_⟩
  intro d₀ d₁ d₂ hclear h₁ h₂ hchange
  have hsiblings : (c.artifacts case).Siblings := Artifacts.siblings_ofCase _ case
  have hclean₁ := Artifacts.clean_sameBut hsiblings hclear hchange h₁
  have hclean₂ := Artifacts.clean_sameBut hsiblings hclear hchange h₂
  constructor
  · -- The cleared disks are equal, and nothing else is read of the disks before.
    intro hleft
    unfold run
    rw [show (w.withDisk d₁).disk = d₁ from rfl, show (w.withDisk d₂).disk = d₂ from rfl,
      hclean₁, hclean₂, hleft]
    rfl
  · intro htools hlogs
    -- Both cleared disks are alike with the one that had no leftovers.
    have halike : ∀ left : Bool, Disk.Alike [(c.artifacts case).directory d₀] d₀
        (if left then d₀.touchDir ((c.artifacts case).directory d₀) else d₀) := by
      intro left
      cases left with
      | false => exact .refl d₀
      | true => exact Disk.alike_touchDir d₀ _
    refine c.run_alike htools hlogs id case rfl ?_ ?_
    · show Disk.Alike _ ((c.artifacts case).clean d₁).1 ((c.artifacts case).clean d₂).1
      rw [hclean₁, hclean₂]
      exact (halike _).symm.trans (halike _)
    · show ((c.artifacts case).clean d₁).2 = ((c.artifacts case).clean d₂).2
      rw [hclean₁, hclean₂]

end Course

/-! ### Samples -/

namespace Sample

open Disk (SameBut)

/-- A scratch directory `/t` with a given mode, and nothing else. -/
def disk (mode : Nat) : Disk where
  nodes := (SortedMap.empty.insert [] (.dir 0o755 ⟨0, 0⟩)).insert [("t" : Text)] (.dir mode ⟨0, 0⟩)
  cwd := none
  now := ⟨1, 0⟩

/-- The place of a case's assembly in the scratch directory. -/
def assembly : Location := [("t" : Text), ("a.s" : Text)]

/-- The place of its binary. -/
def binary : Location := [("t" : Text), ("a.out" : Text)]

/-- A course with scratch directory `/t` and logs below `/g`. -/
def course : Course where
  workDir := "/"
  scratchDir := "/t"
  launcher := "l"
  launcherArgs := []
  linker := "cc"
  linkerArgs := []
  timeout := Course.defaultTimeout
  logs := some (LogStore.source ⟨"/g"⟩)

def case : Case := ⟨"a", "a"⟩

def world (d : Disk) : World Unit := { machine := { disk := d }, memory := () }

/-- A file that was left over. -/
def stale : Node := .file "old" 0o644 ⟨0, 0⟩

/-- A toolchain that does nothing. -/
def idle : Toolchain Unit := fun _ _ m => { ending := {}, machine := m, memory := () }

/-- A toolchain that fails if the scratch directory has changed. -/
def wary : Toolchain Unit := fun _ _ m =>
  { ending := if (m.disk.node? [("t" : Text)]).map Node.modified = some ⟨0, 0⟩ then {}
      else { exitCode := 1 }
    machine := m, memory := () }

/-- A toolchain whose launcher writes the assembly. -/
def emitting : Toolchain Unit := fun cmd _ m =>
  if cmd.program = course.launcher then
    match m.disk.writeFile (course.artifacts case).assembly "new" 0o644 with
    | .ok d => { ending := {}, machine := { m with disk := d }, memory := () }
    | .error _ => { ending := { exitCode := 1 }, machine := m, memory := () }
  else { ending := {}, machine := m, memory := () }

theorem emitting_heedless (times : List Location) : emitting.Heedless times := by
  rintro cmd ⟨⟩ ⟨d, b⟩ ⟨d', b'⟩ hd hb
  obtain rfl : b = b' := hb
  unfold emitting
  split
  · rcases Disk.Alike.writeFile hd (course.artifacts case).assembly "new" 0o644 with
      ⟨e, e', he, he', halike⟩ | ⟨e, he, he'⟩
    · simp only [he, he', halike, and_self]
    · simp only [he, he', hd, and_self]
  · exact ⟨hd, rfl, rfl, rfl, rfl⟩

/-- A file is left over from the launcher, and an empty directory is where the binary goes. -/
def littered : Disk := ((disk 0o755).put assembly stale).put binary (.dir 0o700 ⟨0, 0⟩)

/-- A dangling link is where the assembly goes. -/
def dangling : Disk := (disk 0o755).put assembly (.link "/nowhere")

theorem leftovers_do_not_matter_littered :
    Course.Fresh course case (course.run emitting.noted "r" case (world littered).noting).2.memory.2 ∧
    course.run emitting "r" case (world littered) = course.run emitting "r" case (world dangling) ∧
    (course.run emitting "r" case (world littered)).1 =
      (course.run emitting "r" case (world (disk 0o755))).1 ∧
    World.Alike [[("t" : Text)]] (course.run emitting "r" case (world littered)).2
      (course.run emitting "r" case (world (disk 0o755))).2 := by
  have hplaces : (course.artifacts case).places (disk 0o755) = [assembly, binary] := by
    decide +kernel
  have hclear : (course.artifacts case).Clear (disk 0o755) := by decide +kernel
  have hchange : ∀ x ∈ (course.artifacts case).places (disk 0o755),
      (disk 0o755).changeable x.dropLast = true := by decide +kernel
  have hlittered : SameBut ((course.artifacts case).places (disk 0o755)) (disk 0o755) littered :=
    ((SameBut.refl _ _).put (by simp [hplaces]) _).put (by simp [hplaces]) _
  have hdangling : SameBut ((course.artifacts case).places (disk 0o755)) (disk 0o755) dangling :=
    (SameBut.refl _ _).put (by simp [hplaces]) _
  have hsame := (Course.leftovers_do_not_matter course emitting "r" case (world littered)).2
    (disk 0o755) littered dangling hclear hlittered hdangling hchange
  have hbare := (Course.leftovers_do_not_matter course emitting "r" case (world littered)).2
    (disk 0o755) littered (disk 0o755) hclear hlittered (SameBut.refl _ _) hchange
  refine ⟨?_, hsame.1 (by decide +kernel), ?_⟩
  · refine (Course.leftovers_do_not_matter course emitting "r" case (world littered)).1.2 ?_
    rintro logs ⟨⟩
    decide +kernel
  · have hdir : (course.artifacts case).directory (disk 0o755) = [("t" : Text)] := by
      decide +kernel
    rw [hdir] at hbare
    refine hbare.2 (emitting_heedless _) ?_
    rintro logs ⟨⟩
    exact LogStore.source_heedless _ _

/-- A scratch directory `/s` that is reached through the assembly in it. -/
def winding : Disk where
  nodes := (((SortedMap.empty.insert [] (.dir 0o755 ⟨0, 0⟩)).insert
    [("d" : Text)] (.dir 0o755 ⟨0, 0⟩)).insert
    [("d" : Text), ("a.s" : Text)] (.dir 0o755 ⟨0, 0⟩)).insert
    [("s" : Text)] (.link "d/a.s/..")
  cwd := none
  now := ⟨1, 0⟩

/-- The log of the case leads to its assembly. -/
def crossed : Disk :=
  (((disk 0o755).put [("g" : Text)] (.dir 0o755 ⟨0, 0⟩)).put
    [("g" : Text), ("testrun-r" : Text)] (.dir 0o755 ⟨0, 0⟩)).put
    [("g" : Text), ("testrun-r" : Text), ("a.log" : Text)] (.link "/t/a.s")

/-- Leftovers do matter in a directory that may not be changed; to a toolchain that looks at
    the time of the directory; if the way to one artifact leads through the other; and if the
    log is at the place of an artifact. -/
theorem leftovers_can_matter :
    ((course.artifacts case).Clear (disk 0o555) ∧
      SameBut ((course.artifacts case).places (disk 0o555)) (disk 0o555)
        ((disk 0o555).put assembly stale) ∧
      (course.run idle "r" case (world (disk 0o555))).2.issued.length = 1 ∧
      (course.run idle "r" case (world ((disk 0o555).put assembly stale))).2.issued = []) ∧
    ((course.artifacts case).Clear (disk 0o755) ∧
      SameBut ((course.artifacts case).places (disk 0o755)) (disk 0o755)
        ((disk 0o755).put assembly stale) ∧
      (course.run wary "r" case (world (disk 0o755))).1.verdict = .failedAt .link ∧
      (course.run wary "r" case (world ((disk 0o755).put assembly stale))).1.verdict =
        .failedAt .interpret) ∧
    (winding.spot? (({ course with scratchDir := "/s" } : Course).artifacts case).binary =
        some [("d" : Text), ("a.out" : Text)] ∧
      (({ course with scratchDir := "/s" } : Course).run idle "r" case
        (world winding)).2.disk.node? [("d" : Text), ("a.out" : Text)] = none ∧
      (({ course with scratchDir := "/s" } : Course).run idle "r" case
        (world (winding.put [("d" : Text), ("a.out" : Text)] stale))).2.disk.node?
          [("d" : Text), ("a.out" : Text)] = some stale) ∧
    ((course.artifacts case).Clear crossed ∧
      (course.run idle "r" case (world crossed)).1.verdict = .pass) := by
  refine ⟨⟨by decide +kernel, (SameBut.refl _ _).put (by decide +kernel) stale,
    by decide +kernel, by decide +kernel⟩, ⟨by decide +kernel,
    (SameBut.refl _ _).put (by decide +kernel) stale, by decide +kernel, by decide +kernel⟩,
    ⟨by decide +kernel, by decide +kernel, by decide +kernel⟩,
    by decide +kernel, by decide +kernel⟩

end Sample

end Gauntlet
