import Gauntlet.Proofs.Stages
import Gauntlet.Proofs.Ways

/-! # What a case sees of a disk

  A case has to do with three files: its source and its two artifacts. `SameView` relates
  disks on which these look the same. On such disks the steps of a course that look at the
  disk themselves do the same:

  - an artifact is removed from both, or the same failure is met (`SameView.discard`);
  - a stage is hindered on both, or on neither (`SameView.hindrance?`).

  A toolchain is `Local` to a case if this is also true of the commands of the case, and if
  these change nothing but the artifacts.
-/

namespace Gauntlet

open Disk (SameNode AlikeOff Agree)

/-! ### Durations aside -/

/-- The ending without its duration. -/
def Ending.untimed (e : Ending) : Ending := { e with duration := Duration.zero }

/-- The record without its duration. -/
def StageRecord.untimed (r : StageRecord) : StageRecord := { r with duration := Duration.zero }

/-- The result without durations. -/
def CaseResult.untimed (r : CaseResult) : CaseResult :=
  { r with stages := r.stages.map StageRecord.untimed, duration := Duration.zero }

theorem StageRecord.passed_untimed (r : StageRecord) : r.untimed.passed = r.passed := rfl

namespace Course

theorem verdictOf_untimed (records : List StageRecord) :
    verdictOf (records.map StageRecord.untimed) = verdictOf records := by
  unfold verdictOf
  rw [List.getLast?_map]
  cases records.getLast? <;> rfl

theorem resultOf_untimed (case : Case) {records records' : List StageRecord}
    (h : records.map StageRecord.untimed = records'.map StageRecord.untimed) :
    (resultOf case records).untimed = (resultOf case records').untimed := by
  have hverdict : verdictOf records = verdictOf records' := by
    rw [← verdictOf_untimed, h, verdictOf_untimed]
  simp only [CaseResult.untimed, resultOf, h, hverdict]

/-- The record of a command does not show whether its output was captured. -/
theorem performedRecord_untimed (c : Course) (case : Case) (s : Stage) (captured captured' : Bool)
    {e e' : Ending} (h : e.untimed = e'.untimed) :
    (performedRecord s (c.issuedCommand case captured s) e).untimed =
      (performedRecord s (c.issuedCommand case captured' s) e').untimed := by
  simp only [Ending.untimed, Ending.mk.injEq, and_true] at h
  obtain ⟨hcode, htimed, hcause⟩ := h
  simp only [StageRecord.untimed, performedRecord, hcode, htimed, hcause]
  rfl

/-! ### Views -/

/-- The same location, with nodes that are equal but for the change time of a directory. -/
def SameFind (r r' : Location × Node) : Prop := r.1 = r'.1 ∧ SameNode True (some r.2) (some r'.2)

/-- A path that leads to the same place leads to the same node, if the nodes at that place are
    the same. -/
theorem find_agree {d d' : Disk} {follow : Bool} {p : Text}
    (hplace : d.place follow p = d'.place follow p)
    (hnode : ∀ l, d.place follow p = .ok (.found l) → SameNode True (d.node? l) (d'.node? l)) :
    Agree SameFind (d.find follow p) (d'.find follow p) := by
  unfold Disk.find
  rw [← hplace]
  cases hr : d.place follow p with
  | error e => exact .error e
  | ok there =>
    cases there with
    | free dir name => exact .error _
    | found l =>
      dsimp only
      rcases hnode l hr with heq | ⟨_, m, t, t', hn, hn'⟩
      · rw [heq]
        cases d'.node? l with
        | none => exact .error _
        | some n => exact .ok ⟨rfl, Or.inl rfl⟩
      · rw [hn, hn']
        exact .ok ⟨rfl, Or.inr ⟨trivial, m, t, t', rfl, rfl⟩⟩

/-- Disks on which the source and the artifacts of a case look the same. Of an artifact a case
    sees the way to it, the directory that holds it, but for its change time, and what is at
    its place. -/
structure SameView (c : Course) (case : Case) (d d' : Disk) : Prop where
  cwd : d.cwd = d'.cwd
  now : d.now = d'.now
  mask : d.mask = d'.mask
  source : Agree SameFind (d.find true case.source) (d'.find true case.source)
  holder : ∀ p ∈ (c.artifacts case).paths, d.holder p = d'.holder p
  room : ∀ p ∈ (c.artifacts case).paths, ∀ dir t, d.holder p = .ok (dir, some t) →
    SameNode True (d.node? dir) (d'.node? dir)
  artifact : ∀ x ∈ (c.artifacts case).places d, SameNode True (d.node? x) (d'.node? x)

/-- Each artifact of a case is missing, or a regular file. -/
def Ready (c : Course) (case : Case) (d : Disk) : Prop :=
  ∀ x ∈ (c.artifacts case).places d, ∀ n, d.node? x = some n → n.isFile = true

namespace Ready

variable {c : Course} {case : Case} {d : Disk} {p : Text}

/-- There is no link to follow at the end of the path of an artifact. -/
theorem place_follow (h : c.Ready case d) (hp : p ∈ (c.artifacts case).paths) :
    d.place true p = d.place false p := by
  obtain ⟨front, hform⟩ := (Artifacts.siblings_ofCase c.scratchDir case).exists_front
  obtain ⟨u, hu, rfl⟩ := hform p hp
  refine Disk.place_append_follow hu fun x hx target hlink => ?_
  have hfile := h x (Artifacts.mem_places.mpr ⟨_, hp, hx⟩) _ hlink
  simp [Node.isFile] at hfile

theorem spot? (h : c.Ready case d) (hp : p ∈ (c.artifacts case).paths) {r : Disk.Place}
    (hr : d.place true p = .ok r) : d.spot? p = some r.location := by
  rw [h.place_follow hp] at hr
  obtain ⟨front, hform⟩ := (Artifacts.siblings_ofCase c.scratchDir case).exists_front
  obtain ⟨u, hu, rfl⟩ := hform p hp
  exact Disk.spot?_of_place_append hu hr

theorem mem_places (h : c.Ready case d) (hp : p ∈ (c.artifacts case).paths) {r : Disk.Place}
    (hr : d.place true p = .ok r) : r.location ∈ (c.artifacts case).places d :=
  Artifacts.mem_places.mpr ⟨p, hp, h.spot? hp hr⟩

end Ready

theorem sameNode_isSome {x y : Option Node} (h : SameNode True x y) : x.isSome = y.isSome := by
  rcases h with rfl | ⟨_, m, t, t', rfl, rfl⟩ <;> rfl

theorem sameNode_none {x : Option Node} (h : SameNode True none x) : x = none := by
  simpa using sameNode_isSome h

theorem sameNode_isFile {x y : Option Node} (h : SameNode True x y)
    (hx : ∀ n, x = some n → n.isFile = true) (n : Node) (hn : y = some n) : n.isFile = true := by
  rcases h with rfl | ⟨_, m, t, t', hdir, _⟩
  · exact hx n hn
  · exact absurd (hx _ hdir) (by simp [Node.isFile])

theorem sameNode_isDir {n n' : Node} (h : SameNode True (some n) (some n')) :
    n.isDir = n'.isDir := by
  rcases h with h | ⟨_, m, t, t', h, h'⟩
  · rw [Option.some.inj h]
  · rw [Option.some.inj h, Option.some.inj h']
    rfl

namespace SameView

variable {c : Course} {case : Case} {d d' : Disk} {p : Text} {x : Location}

theorem spot? (h : c.SameView case d d') (hp : p ∈ (c.artifacts case).paths) :
    d.spot? p = d'.spot? p :=
  Disk.spot?_congr (h.holder p hp)

theorem places (h : c.SameView case d d') :
    (c.artifacts case).places d = (c.artifacts case).places d' :=
  List.filterMap_congr fun _ hp => h.spot? hp

theorem changeable (h : c.SameView case d d') (hp : p ∈ (c.artifacts case).paths)
    (hx : d.spot? p = some x) : d.changeable x.dropLast = d'.changeable x.dropLast := by
  obtain ⟨dir, t, hholder, _, rfl⟩ := Disk.spot?_eq_some hx
  rw [List.dropLast_concat]
  exact Disk.changeable_congr (h.room p hp dir t hholder).outline

theorem ready (h : c.SameView case d d') (hready : c.Ready case d) : c.Ready case d' := by
  intro x hx
  rw [← h.places] at hx
  exact sameNode_isFile (h.artifact x hx) (hready x hx)

/-! ### Looking for an artifact -/

theorem place (h : c.SameView case d d') (hready : c.Ready case d)
    (hp : p ∈ (c.artifacts case).paths) : d.place true p = d'.place true p := by
  rw [hready.place_follow hp, (h.ready hready).place_follow hp]
  obtain ⟨front, hform⟩ := (Artifacts.siblings_ofCase c.scratchDir case).exists_front
  obtain ⟨u, hu, rfl⟩ := hform p hp
  have hway := h.holder _ hp
  rcases Disk.place_append hu d front with
    ⟨e, hholder, hplace⟩ | ⟨dir, t, hholder, hhere, hup, hplace⟩ <;>
  rcases Disk.place_append hu d' front with
    ⟨e', hholder', hplace'⟩ | ⟨dir', t', hholder', _, _, hplace'⟩ <;>
  rw [hholder, hholder'] at hway
  · rw [hplace, hplace', Except.error.inj hway]
  · simp at hway
  · simp at hway
  · obtain ⟨rfl, rfl⟩ : dir = dir' ∧ t = t' := by simpa using hway
    rw [hplace, hplace']
    unfold Disk.thence
    dsimp only
    rw [sameNode_isSome (h.room _ hp dir t hholder)]
    split
    · rfl
    split
    · rfl
    · -- The name is not too long, so the artifact has a place, and that looks the same.
      rename_i hshort
      have hspot : d.spot? (front ++ u) = some (dir ++ [t]) := by
        simp [Disk.spot?, hholder, Disk.irremovable?, hhere, hup, hshort]
      have hnode := sameNode_isSome
        (h.artifact _ (Artifacts.mem_places.mpr ⟨_, hp, hspot⟩))
      cases hn : d.node? (dir ++ [t]) <;> cases hn' : d'.node? (dir ++ [t]) <;>
        simp [hn, hn'] at hnode ⊢

theorem find (h : c.SameView case d d') (hready : c.Ready case d)
    (hp : p ∈ (c.artifacts case).paths) :
    Agree SameFind (d.find true p) (d'.find true p) :=
  find_agree (h.place hready hp) fun l hl => h.artifact l (hready.mem_places hp hl)

/-- A stage is hindered for the same reason, or not at all. -/
theorem hindrance? {m m' : Machine} (h : c.SameView case m.disk m'.disk)
    (hready : c.Ready case m.disk) (hcancelled : m.cancelled = m'.cancelled) (s : Stage) :
    c.hindrance? case s m = c.hindrance? case s m' := by
  unfold Course.hindrance? Disk.stat
  rw [hcancelled]
  rcases h.find hready (p := (c.artifacts case).assembly) (by simp [Artifacts.paths]) with
    ⟨r, r', hr, hr', _⟩ | ⟨e, he, he'⟩
  · simp only [hr, hr', Except.mapError]
  · simp only [he, he', Except.mapError]

end SameView

/-! ### Removing an artifact -/

/-- What has been removed is gone from its place, and nothing else has changed. -/
theorem discard_effect {d e : Disk} {p : Text} (h : Artifacts.discard d p = .ok e) :
    AlikeOff {x | d.spot? p = some x} d e ∧ ∀ x, d.spot? p = some x → e.node? x = none := by
  unfold Artifacts.discard at h
  split at h
  · rename_i d' hremove
    obtain rfl := Except.ok.inj h
    obtain ⟨x, hx, rfl⟩ := Disk.remove_eq_ok hremove
    refine ⟨((AlikeOff.refl d).drop hx).touchDir x.dropLast, fun y hy => ?_⟩
    obtain rfl : x = y := Option.some.inj (hx.symm.trans hy)
    rw [Disk.node?_touchDir, Disk.node?_drop, if_pos rfl]
    simp
  · rename_i e' hremove
    split at h
    · rename_i hmissing
      obtain rfl := Except.ok.inj h
      refine ⟨AlikeOff.refl d, fun y hy => ?_⟩
      rcases Disk.vacant_of_remove hremove hmissing with hholder | ⟨x, hx, hnone⟩
      · simp [Disk.spot?, hholder] at hy
      · obtain rfl : x = y := Option.some.inj (hx.symm.trans hy)
        exact hnone
    · simp at h

/-- An artifact is removed from disks that look the same to its case, if nothing is below it
    on one of them only, or the same failure is met. -/
theorem SameView.discard {c : Course} {case : Case} {d d' : Disk} {p : Text}
    (h : c.SameView case d d') (hp : p ∈ (c.artifacts case).paths)
    (hbelow : ∀ x, d.spot? p = some x → ∀ t,
      SameNode True (d.node? (x ++ [t])) (d'.node? (x ++ [t]))) :
    Agree (fun _ _ => True) (Artifacts.discard d p) (Artifacts.discard d' p) := by
  cases hx : d.spot? p with
  | none =>
    rw [Artifacts.discard_of_spot_none (h.holder p hp).symm hx]
    cases Artifacts.discard d p with
    | error f => exact .error f
    | ok e => exact .ok trivial
  | some x =>
    have hx' : d'.spot? p = some x := (h.spot? hp).symm.trans hx
    have hempty : (d.names x).isEmpty = (d'.names x).isEmpty := by
      rw [Bool.eq_iff_iff, List.isEmpty_iff, List.isEmpty_iff, Disk.names_eq_nil_iff,
        Disk.names_eq_nil_iff]
      refine forall_congr' fun t => ?_
      have hsome := sameNode_isSome (hbelow x hx t)
      cases hn : d.node? (x ++ [t]) <;> cases hn' : d'.node? (x ++ [t]) <;>
        simp [hn, hn'] at hsome ⊢
    unfold Artifacts.discard
    rw [Disk.remove_of_spot_some hx, Disk.remove_of_spot_some hx', h.changeable hp hx, hempty]
    have hnode := h.artifact x (Artifacts.mem_places.mpr ⟨p, hp, hx⟩)
    cases hn : d.node? x <;> cases hn' : d'.node? x <;> rw [hn, hn'] at hnode
    · exact .ok trivial
    · simpa using sameNode_isSome hnode
    · simpa using sameNode_isSome hnode
    · -- What is asked of the node, of its directory and of what is below has one answer.
      rename_i n n'
      dsimp only
      rw [sameNode_isDir hnode]
      by_cases hslash : (!n'.isDir && p.getLast? = some Path.slash) = true
      · simp only [hslash, if_true]
        exact .error _
      by_cases hdenied : (!d'.changeable x.dropLast) = true
      · simp only [hslash, hdenied, if_true]
        exact .error _
      by_cases hfull : (n'.isDir && !(d'.names x).isEmpty) = true
      · simp only [hslash, hdenied, hfull, if_true]
        exact .error _
      · simp only [hslash, hdenied, hfull]
        exact .ok trivial

/-! ### Local toolchains -/

/-- A toolchain whose commands for a case keep to the files of the case, as long as its
    artifacts are missing or regular files. How a command ends, but for its duration, and what
    it does depends on what the case sees of the disk. It changes nothing but the artifacts,
    and leaves them missing or regular files. -/
structure Local {σ : Type} (c : Course) (tools : Toolchain σ) (case : Case) : Prop where
  depends : ∀ s ∈ Stage.all, ∀ (captured captured' : Bool) (memory memory' : σ) (m m' : Machine),
    c.Ready case m.disk → c.SameView case m.disk m'.disk → m.cancelled = m'.cancelled →
    (tools (c.issuedCommand case captured s) memory m).ending.untimed =
      (tools (c.issuedCommand case captured' s) memory' m').ending.untimed ∧
    ∀ x ∈ (c.artifacts case).places m.disk,
      SameNode True ((tools (c.issuedCommand case captured s) memory m).machine.disk.node? x)
        ((tools (c.issuedCommand case captured' s) memory' m').machine.disk.node? x)
  changes : ∀ s ∈ Stage.all, ∀ (captured : Bool) (memory : σ) (m : Machine),
    c.Ready case m.disk →
    AlikeOff {x | x ∈ (c.artifacts case).places m.disk} m.disk
      (tools (c.issuedCommand case captured s) memory m).machine.disk ∧
    (∀ x ∈ (c.artifacts case).places m.disk, ∀ n,
      (tools (c.issuedCommand case captured s) memory m).machine.disk.node? x = some n →
        n.isFile = true) ∧
    (tools (c.issuedCommand case captured s) memory m).machine.cancelled = m.cancelled

end Course

end Gauntlet
