import Gauntlet.Proofs.Views

/-! # A toolchain that copies

  The simplest toolchain that takes every case through its stages copies the source to the
  assembly, and the assembly to the binary. It is local to every case that is named for its
  source (`Course.copying_local`).
-/

namespace Gauntlet

open Disk (SameNode AlikeOff Agree)

/-- Puts a file at the location of a path, instead of what is there. -/
def Disk.install (d : Disk) (p data : Text) : Option Disk :=
  match d.spot? p with
  | none => none
  | some x =>
    if d.changeable x.dropLast then some ((d.put x (.file data 0o644 d.now)).touchDir x.dropLast)
    else none

/-- A command that copies a file. -/
def Machine.copy (m : Machine) (p q : Text) : Reaction Unit :=
  match (m.disk.contents p).toOption.bind (m.disk.install q) with
  | some d => { ending := {}, machine := { m with disk := d }, memory := () }
  | none => { ending := { exitCode := 1 }, machine := m, memory := () }

/-- Copies the source to the assembly in a scratch directory and the assembly to the binary,
    which then does nothing. -/
def Toolchain.copying (scratch : Text) : Toolchain Unit := fun cmd _ m =>
  match cmd.args with
  | [source] => m.copy source (Artifacts.ofCase scratch ⟨source, Path.base source⟩).assembly
  | [assembly, _, binary] => m.copy assembly binary
  | _ => { ending := {}, machine := m, memory := () }

theorem Disk.install_effect {d e : Disk} {p data : Text} (h : d.install p data = some e) :
    ∃ x, d.spot? p = some x ∧ AlikeOff {x} d e ∧
      e.node? x = some (.file data 0o644 d.now) := by
  unfold install at h
  split at h
  · simp at h
  · rename_i x hx
    split at h
    · obtain rfl := Option.some.inj h
      refine ⟨x, hx, ((AlikeOff.refl d).put (Set.mem_singleton x) _).touchDir _, ?_⟩
      rw [node?_touchDir, node?_put, if_pos rfl]
      split <;> rfl
    · simp at h

namespace Course

/-- Only the node at the end of a path matters to what is read. -/
theorem contents_agree {d d' : Disk} {p : Text}
    (h : Agree SameFind (d.find true p) (d'.find true p)) : d.contents p = d'.contents p := by
  unfold Disk.contents
  rcases h with ⟨⟨l, n⟩, ⟨l', n'⟩, hr, hr', _, hnode⟩ | ⟨e, he, he'⟩
  · rw [hr, hr']
    rcases hnode with heq | ⟨_, m, t, t', hn, hn'⟩
    · obtain rfl : n = n' := Option.some.inj heq
      rfl
    · obtain rfl : n = .dir m t := Option.some.inj hn
      obtain rfl : n' = .dir m t' := Option.some.inj hn'
      rfl
  · rw [he, he']

/-! ### Copies to an artifact -/

section Copies

variable {c : Course} {case : Case} {m m' : Machine} {p q : Text}
  (hq : q ∈ (c.artifacts case).paths)

include hq

theorem SameView.install {d d' : Disk} (h : c.SameView case d d') (data : Text) :
    (d.install q data).isSome = (d'.install q data).isSome := by
  unfold Disk.install
  rw [← h.spot? hq]
  cases hx : d.spot? q with
  | none => rfl
  | some x =>
    dsimp only
    rw [h.changeable hq hx]
    split <;> rfl

/-- A copy depends on what is copied, and on what the case sees. -/
theorem SameView.copy (h : c.SameView case m.disk m'.disk)
    (hp : m.disk.contents p = m'.disk.contents p) :
    (m.copy p q).ending = (m'.copy p q).ending ∧
    ∀ x ∈ (c.artifacts case).places m.disk,
      SameNode True ((m.copy p q).machine.disk.node? x) ((m'.copy p q).machine.disk.node? x) := by
  unfold Machine.copy
  rw [← hp]
  cases m.disk.contents p with
  | error e => exact ⟨rfl, h.artifact⟩
  | ok data =>
    have hsome := h.install hq data
    simp only [Except.toOption, Option.bind_some]
    cases he : m.disk.install q data with
    | none =>
      cases he' : m'.disk.install q data with
      | none => exact ⟨rfl, h.artifact⟩
      | some e' => simp [he, he'] at hsome
    | some e =>
      cases he' : m'.disk.install q data with
      | none => simp [he, he'] at hsome
      | some e' =>
        obtain ⟨x, hx, halike, hnode⟩ := Disk.install_effect he
        obtain ⟨x', hx', halike', hnode'⟩ := Disk.install_effect he'
        obtain rfl : x = x' := by simpa [← h.spot? hq, hx] using hx'
        refine ⟨rfl, fun y hy => ?_⟩
        dsimp only
        by_cases hyx : y = x
        · rw [hyx, hnode, hnode', h.now]
          exact Or.inl rfl
        · exact ((halike.node y hyx).symm.trans (h.artifact y hy)).trans (halike'.node y hyx)

/-- A copy changes nothing else, and leaves a file. -/
theorem Ready.copy (hready : c.Ready case m.disk) (p : Text) :
    AlikeOff {x | x ∈ (c.artifacts case).places m.disk} m.disk (m.copy p q).machine.disk ∧
    (∀ x ∈ (c.artifacts case).places m.disk, ∀ n,
      (m.copy p q).machine.disk.node? x = some n → n.isFile = true) ∧
    (m.copy p q).machine.cancelled = m.cancelled := by
  unfold Machine.copy
  split
  · rename_i e he
    obtain ⟨data, _, he⟩ := Option.bind_eq_some_iff.mp he
    obtain ⟨x, hx, halike, hnode⟩ := Disk.install_effect he
    have hmem : x ∈ (c.artifacts case).places m.disk := Artifacts.mem_places.mpr ⟨q, hq, hx⟩
    refine ⟨halike.mono (Set.singleton_subset_iff.mpr hmem), fun y hy => ?_, rfl⟩
    dsimp only
    by_cases hyx : y = x
    · rw [hyx, hnode]
      rintro n ⟨⟩
      rfl
    · exact sameNode_isFile (halike.node y hyx) (hready y hy)
  · exact ⟨AlikeOff.refl _, hready, rfl⟩

end Copies

/-! ### Stages -/

/-- A stage copies a file that the case sees to an artifact, or does nothing. -/
theorem copying_stage {c : Course} (hlauncher : c.launcherArgs = []) (hlinker : c.linkerArgs = [])
    {case : Case} (hname : case.name = Path.base case.source) {s : Stage} (hs : s ∈ Stage.all) :
    (∃ p q, q ∈ (c.artifacts case).paths ∧
      (∀ d d', c.Ready case d → c.SameView case d d' → d.contents p = d'.contents p) ∧
      ∀ captured memory m,
        Toolchain.copying c.scratchDir (c.issuedCommand case captured s) memory m = m.copy p q) ∨
    ∀ captured memory m,
      Toolchain.copying c.scratchDir (c.issuedCommand case captured s) memory m =
        { ending := {}, machine := m, memory := () } := by
  rcases List.mem_cons.mp hs with rfl | hs
  · refine Or.inl ⟨case.source, (c.artifacts case).assembly, by simp [Artifacts.paths],
      fun d d' _ h => contents_agree h.source, fun captured memory m => ?_⟩
    have hargs : (c.issuedCommand case captured .interpret).args =
        c.launcherArgs ++ [case.source] := rfl
    have hcase : (⟨case.source, Path.base case.source⟩ : Case) = case := by rw [← hname]
    rw [hlauncher] at hargs
    simp only [Toolchain.copying, hargs, List.nil_append, hcase, artifacts]
  rcases List.mem_cons.mp hs with rfl | hs
  · refine Or.inl ⟨(c.artifacts case).assembly, (c.artifacts case).binary,
      by simp [Artifacts.paths],
      fun d d' hready h => contents_agree (h.find hready (by simp [Artifacts.paths])),
      fun captured memory m => ?_⟩
    have hargs : (c.issuedCommand case captured .link).args =
        c.linkerArgs ++ [(c.artifacts case).assembly, "-o", (c.artifacts case).binary] := rfl
    rw [hlinker] at hargs
    simp only [Toolchain.copying, hargs, List.nil_append]
  · obtain rfl := List.mem_singleton.mp hs
    exact Or.inr fun captured memory m => rfl

/-- The toolchain is local to every case that is named for its source. -/
theorem copying_local {c : Course} (hlauncher : c.launcherArgs = []) (hlinker : c.linkerArgs = [])
    {case : Case} (hname : case.name = Path.base case.source) :
    c.Local (Toolchain.copying c.scratchDir) case := by
  constructor
  · intro s hs captured captured' memory memory' m m' hready h _
    rcases copying_stage hlauncher hlinker hname hs with ⟨p, q, hq, hp, hcopy⟩ | hidle
    · rw [hcopy, hcopy]
      obtain ⟨hending, hnodes⟩ := h.copy hq (hp _ _ hready h)
      exact ⟨by rw [hending], hnodes⟩
    · rw [hidle, hidle]
      exact ⟨rfl, h.artifact⟩
  · intro s hs captured memory m hready
    rcases copying_stage hlauncher hlinker hname hs with ⟨p, q, hq, _, hcopy⟩ | hidle
    · rw [hcopy]
      exact hready.copy hq p
    · rw [hidle]
      exact ⟨AlikeOff.refl _, hready, rfl⟩

end Course

end Gauntlet
