import Gauntlet.Proofs.CaseNames
import Gauntlet.Proofs.Copying
import Gauntlet.Proofs.Interleaving
import Gauntlet.Proofs.LogArea
import Gauntlet.Proofs.Verdict

/-! # Cases that share a world

  Selected cases take turns on one world, each moving when it is its turn. If the toolchain is
  local to every case, and no artifact lies on the way to a source or to the scratch directory,
  then each case comes to the result that it comes to alone, and leaves the same artifacts
  (`cases_isolated`), whatever the order of the turns.

  Two facts about one move carry the proof. A move changes nothing but the artifacts of its
  own case and the area of the logs (`move_keeps`). And from disks that look the same to the
  case, it comes to the same point and leaves disks that look the same (`move_alike`).
-/

namespace Gauntlet

open Disk (SameNode AlikeOff Agree)

/-- The point without durations and logs. -/
def Point.untimed : Point → Point
  | clearing left => clearing left
  | checking _ records stages => checking none (records.map StageRecord.untimed) stages
  | performing _ records s rest => performing none (records.map StageRecord.untimed) s rest
  | done r => done r.untimed

namespace Course

/-! ### Cases apart -/

section Apart

variable (c : Course) (cases : List Case) (area : Set Location) (d₀ : Disk)

/-- The locations that belong to a case. -/
def own (case : Case) : Set Location := {x | x ∈ (c.artifacts case).places d₀}

/-- The locations that belong to cases or to their logs. -/
def spots : Set Location := {x | (∃ case ∈ cases, x ∈ c.own d₀ case) ∨ x ∈ area}

/-- The ways to the sources and to the artifacts of the cases do not lead through an artifact
    or through the area of the logs, and the logs are neither at the place of an artifact nor
    right below it. -/
structure Apart : Prop where
  sources : ∀ case ∈ cases, ∀ x ∈ d₀.way true case.source, x ∉ c.spots cases area d₀
  approaches : ∀ case ∈ cases, ∀ p ∈ (c.artifacts case).paths, ∀ x ∈ d₀.approach p,
    x ∉ c.spots cases area d₀
  logs : ∀ case ∈ cases, ∀ x ∈ c.own d₀ case, x ∉ area ∧ ∀ t, x ++ [t] ∉ area

/-- A disk on which only the spots of the cases have changed, and that has no links in the
    area of the logs. -/
structure Steady (d : Disk) : Prop where
  alike : AlikeOff (c.spots cases area d₀) d₀ d
  linkFree : d.LinkFree area

end Apart

variable {c : Course} {cases : List Case} {area : Set Location} {d₀ d d' : Disk} {case : Case}

theorem own_subset (hcase : case ∈ cases) : c.own d₀ case ∪ area ⊆ c.spots cases area d₀ := by
  rintro x (hx | hx)
  · exact Or.inl ⟨case, hcase, hx⟩
  · exact Or.inr hx

/-- What changes at the spots of one case keeps a disk steady. -/
theorem Steady.trans (h : c.Steady cases area d₀ d) (hcase : case ∈ cases)
    (halike : AlikeOff (c.own d₀ case ∪ area) d d') (hlinks : d'.LinkFree area) :
    c.Steady cases area d₀ d' :=
  ⟨h.alike.trans (halike.mono (own_subset hcase)), hlinks⟩

theorem linkFree_of_alikeOff {spots : Set Location} (h : d.LinkFree area)
    (halike : AlikeOff spots d d') (hoff : ∀ x ∈ area, x ∉ spots) : d'.LinkFree area := by
  intro x hx target hlink
  rcases halike.node x (hoff x hx) with heq | ⟨_, m, t, t', _, hdir⟩
  · exact h x hx target (heq.trans hlink)
  · rw [hlink] at hdir
    simp at hdir

namespace Apart

variable (hapart : c.Apart cases area d₀) (hcase : case ∈ cases)

include hapart hcase

theorem own_notMem_area {x : Location} (hx : x ∈ c.own d₀ case) : x ∉ area :=
  (hapart.logs case hcase x hx).1

/-- The place of one artifact is not right below that of another. -/
theorem child_notMem {x : Location} (hx : x ∈ c.own d₀ case) (t : Text) :
    x ++ [t] ∉ c.spots cases area d₀ := by
  rintro (⟨other, hother, hmem⟩ | hmem)
  · -- Then the one would be on the way to the other.
    obtain ⟨p, hp, hspot⟩ := Artifacts.mem_places.mp hmem
    obtain ⟨dir, t', hholder, _, heq⟩ := Disk.spot?_eq_some hspot
    obtain ⟨rfl, _⟩ := List.append_inj' heq rfl
    exact hapart.approaches other hother p hp x (Disk.mem_approach_of_holder hholder)
      (Or.inl ⟨case, hcase, hx⟩)
  · exact (hapart.logs case hcase x hx).2 t hmem

theorem holder_eq (h : c.Steady cases area d₀ d) {p : Text}
    (hp : p ∈ (c.artifacts case).paths) : d₀.holder p = d.holder p :=
  Disk.holder_eq_of_approach h.alike.cwd fun x hx =>
    (h.alike.node x (hapart.approaches case hcase p hp x hx)).outline

theorem spot?_eq (h : c.Steady cases area d₀ d) {p : Text}
    (hp : p ∈ (c.artifacts case).paths) : d₀.spot? p = d.spot? p :=
  Disk.spot?_congr (hapart.holder_eq hcase h hp)

theorem places_eq (h : c.Steady cases area d₀ d) :
    (c.artifacts case).places d₀ = (c.artifacts case).places d :=
  List.filterMap_congr fun _ hp => hapart.spot?_eq hcase h hp

theorem find_source (h : c.Steady cases area d₀ d) (h' : c.Steady cases area d₀ d') :
    Agree SameFind (d.find true case.source) (d'.find true case.source) := by
  have halike := h.alike.symm.trans h'.alike
  have hway : ∀ {e}, c.Steady cases area d₀ e →
      d₀.place true case.source = e.place true case.source := by
    intro e he
    refine Disk.place_eq_of_way he.alike.cwd fun x hx => ?_
    exact (he.alike.node x (hapart.sources case hcase x hx)).outline
  refine find_agree ((hway h).symm.trans (hway h')) fun l hl => ?_
  rw [← hway h] at hl
  exact halike.node l (hapart.sources case hcase l (Disk.mem_way_of_found hl))

/-- Steady disks look the same to a case if its artifacts do. -/
theorem sameView (h : c.Steady cases area d₀ d) (h' : c.Steady cases area d₀ d')
    (hown : ∀ x ∈ c.own d₀ case, SameNode True (d.node? x) (d'.node? x)) :
    c.SameView case d d' where
  cwd := h.alike.cwd.symm.trans h'.alike.cwd
  now := h.alike.now.symm.trans h'.alike.now
  mask := h.alike.mask.symm.trans h'.alike.mask
  source := hapart.find_source hcase h h'
  holder p hp := (hapart.holder_eq hcase h hp).symm.trans (hapart.holder_eq hcase h' hp)
  room p hp dir t hdir := by
    rw [← hapart.holder_eq hcase h hp] at hdir
    have hoff := hapart.approaches case hcase p hp dir (Disk.mem_approach_of_holder hdir)
    exact (h.alike.symm.trans h'.alike).node dir hoff
  artifact x hx := by
    rw [← hapart.places_eq hcase h] at hx
    exact hown x hx

end Apart

/-! ### Points and disks -/

/-- The artifacts of a case are missing, or regular files. -/
def Filed (c : Course) (d₀ : Disk) (case : Case) (d : Disk) : Prop :=
  ∀ x ∈ c.own d₀ case, ∀ n, d.node? x = some n → n.isFile = true

/-- What the point of a case says of the disk. What has been cleared is gone, and later on the
    artifacts are missing or files. An open log has its file in the area of the logs. -/
def Fit (c : Course) (area : Set Location) (d₀ : Disk) (case : Case) : Point → Disk → Prop
  | .clearing left, d => left ⊆ (c.artifacts case).paths ∧
    ∀ p ∈ (c.artifacts case).paths, p ∉ left → ∀ x, d₀.spot? p = some x → d.node? x = none
  | .checking log _ stages, d =>
    (∀ l ∈ log, l.location ∈ area) ∧ stages ⊆ Stage.all ∧ c.Filed d₀ case d
  | .performing log _ s rest, d =>
    (∀ l ∈ log, l.location ∈ area) ∧ s :: rest ⊆ Stage.all ∧ c.Filed d₀ case d
  | .done _, _ => True

theorem fit_outset (c : Course) (area : Set Location) (d₀ : Disk) (case : Case) (d : Disk) :
    c.Fit area d₀ case (c.outset case) d :=
  ⟨List.Subset.refl _, fun _ hp hnot => absurd hp hnot⟩

theorem Filed.of_alikeOff {spots : Set Location} (h : c.Filed d₀ case d)
    (halike : AlikeOff spots d d') (hoff : ∀ x ∈ c.own d₀ case, x ∉ spots) :
    c.Filed d₀ case d' := by
  intro x hx
  exact sameNode_isFile (halike.node x (hoff x hx)) (h x hx)

/-- What is done elsewhere does not matter to a case. -/
theorem Fit.of_alikeOff {spots : Set Location} {p : Point} (h : c.Fit area d₀ case p d)
    (halike : AlikeOff spots d d') (hoff : ∀ x ∈ c.own d₀ case, x ∉ spots) :
    c.Fit area d₀ case p d' := by
  cases p with
  | clearing left =>
    refine ⟨h.1, fun p hp hleft x hx => ?_⟩
    have hnode := halike.node x (hoff x (Artifacts.mem_places.mpr ⟨p, hp, hx⟩))
    rw [h.2 p hp hleft x hx] at hnode
    exact sameNode_none hnode
  | checking log records stages => exact ⟨h.1, h.2.1, h.2.2.of_alikeOff halike hoff⟩
  | performing log records s rest => exact ⟨h.1, h.2.1, h.2.2.of_alikeOff halike hoff⟩
  | done r => trivial

/-- Once everything has been cleared, the artifacts are missing. -/
theorem Fit.filed (h : c.Fit area d₀ case (.clearing []) d) : c.Filed d₀ case d := by
  intro x hx n hn
  obtain ⟨p, hp, hx⟩ := Artifacts.mem_places.mp hx
  rw [h.2 p hp (by simp) x hx] at hn
  simp at hn

/-- What changes elsewhere leaves artifacts that look the same. -/
theorem own_alike {spots spots' : Set Location} {e e' : Disk}
    (hown : ∀ x ∈ c.own d₀ case, SameNode True (d.node? x) (d'.node? x))
    (halike : AlikeOff spots d e) (halike' : AlikeOff spots' d' e')
    (hoff : ∀ x ∈ c.own d₀ case, x ∉ spots) (hoff' : ∀ x ∈ c.own d₀ case, x ∉ spots') :
    ∀ x ∈ c.own d₀ case, SameNode True (e.node? x) (e'.node? x) := by
  intro x hx
  exact ((halike.node x (hoff x hx)).symm.trans (hown x hx)).trans (halike'.node x (hoff' x hx))

theorem Filed.ready (h : c.Filed d₀ case d) (hplaces : (c.artifacts case).places d₀ =
    (c.artifacts case).places d) : c.Ready case d := by
  intro x hx
  rw [← hplaces] at hx
  exact h x hx

/-! ### What a move changes -/

section Moves

variable {σ : Type} {tools : Toolchain σ} {id : Text} {w w' : World σ}

/-- What a move to a point may do to the world. -/
structure Keeps (c : Course) (area : Set Location) (d₀ : Disk) (case : Case) (p : Point)
    (w w' : World σ) : Prop where
  alike : AlikeOff (c.own d₀ case ∪ area) w.disk w'.disk
  linkFree : w'.disk.LinkFree area
  fit : c.Fit area d₀ case p w'.disk
  cancelled : w'.machine.cancelled = w.machine.cancelled

/-- Metrics and spans do not matter. -/
theorem Keeps.of_machine {w'' : World σ} {p : Point} (h : c.Keeps area d₀ case p w w')
    (hm : w''.machine = w'.machine) : c.Keeps area d₀ case p w w'' := by
  have hdisk : w''.disk = w'.disk := congrArg Machine.disk hm
  refine ⟨?_, ?_, ?_, ?_⟩
  · rw [hdisk]
    exact h.alike
  · rw [hdisk]
    exact h.linkFree
  · rw [hdisk]
    exact h.fit
  · rw [hm]
    exact h.cancelled

theorem location_subset {log : Option CaseLog} (hlog : ∀ l ∈ log, l.location ∈ area) :
    {x | x ∈ log.map CaseLog.location} ⊆ area := by
  intro x hx
  obtain ⟨l, hl, rfl⟩ := Option.mem_map.mp hx
  exact hlog l hl

/-- Before a command is issued, and after it has ended, the log is all that changes. -/
theorem logged_keeps {log log' : Option CaseLog} (hcase : case ∈ cases)
    (h : c.Steady cases area d₀ d) (hlog : ∀ l ∈ log, l.location ∈ area)
    (hlogged : Logged log d log' d') :
    AlikeOff area d d' ∧ c.Steady cases area d₀ d' ∧ ∀ l ∈ log', l.location ∈ area := by
  obtain ⟨hbeyond, hlog'⟩ := hlogged.within hlog
  have halike : AlikeOff area d d' := hbeyond.alikeOff
  exact ⟨halike, h.trans hcase (halike.mono Set.subset_union_right)
    (h.linkFree.of_layout hlogged.layout), hlog'⟩

variable (hapart : c.Apart cases area d₀) (hcase : case ∈ cases)

include hapart hcase

theorem openLog_keeps
    (hlogs : ∀ logs ∈ c.logs, logs.Aside id cases area (c.spots cases area d₀) d₀)
    (h : c.Steady cases area d₀ w.disk) (hfiled : c.Filed d₀ case w.disk) :
    AlikeOff area w.disk (c.openLog id case w).1.disk ∧
    c.Keeps area d₀ case (.checking (c.openLog id case w).2 [] Stage.all) w
      (c.openLog id case w).1 := by
  -- It is enough to know what opening does to the disk.
  suffices hopen : AlikeOff area w.disk (c.openLog id case w).1.disk ∧
      (c.openLog id case w).1.disk.LinkFree area ∧
      (∀ l ∈ (c.openLog id case w).2, l.location ∈ area) ∧
      (c.openLog id case w).1.machine.cancelled = w.machine.cancelled by
    obtain ⟨halike, hlinks, hlocation, hcancelled⟩ := hopen
    refine ⟨halike, halike.mono Set.subset_union_right, hlinks, ⟨hlocation, ?_, ?_⟩, hcancelled⟩
    · exact List.Subset.refl _
    · exact hfiled.of_alikeOff halike fun x hx => hapart.own_notMem_area hcase hx
  unfold openLog
  cases hsource : c.logs with
  | none => exact ⟨AlikeOff.refl _, h.linkFree, by simp, rfl⟩
  | some source =>
    have hopened := hlogs source hsource case hcase w.disk h.alike h.linkFree
    dsimp only
    generalize source id case w.disk = r at hopened ⊢
    obtain ⟨e, _ | l⟩ := r
    · exact ⟨hopened.1, hopened.2.1, by simp, rfl⟩
    · refine ⟨hopened.1, hopened.2.1, ?_, rfl⟩
      intro l' hl'
      obtain rfl : l = l' := by simpa using hl'
      exact hopened.2.2 l rfl

theorem discard_keeps {e : Disk} {p : Text} {left : List Text}
    (h : c.Steady cases area d₀ w.disk) (hfit : c.Fit area d₀ case (.clearing (p :: left)) w.disk)
    (hdiscard : Artifacts.discard w.disk p = .ok e) :
    c.Keeps area d₀ case (.clearing left) w (w.withDisk e) := by
  obtain ⟨halike, hgone⟩ := discard_effect hdiscard
  have hp : p ∈ (c.artifacts case).paths := hfit.1 List.mem_cons_self
  rw [← hapart.spot?_eq hcase h hp] at halike hgone
  have hsub : {x | d₀.spot? p = some x} ⊆ c.own d₀ case := fun x hx =>
    Artifacts.mem_places.mpr ⟨p, hp, hx⟩
  refine ⟨halike.mono fun x hx => Or.inl (hsub hx), ?_, ⟨?_, ?_⟩, rfl⟩
  · exact linkFree_of_alikeOff h.linkFree halike fun x hx hmem =>
      hapart.own_notMem_area hcase (hsub hmem) hx
  · exact List.Subset.trans (List.subset_cons_self p left) hfit.1
  · -- What had been cleared before is still gone.
    intro p' hp' hleft x hx
    by_cases heq : d₀.spot? p = some x
    · exact hgone x heq
    · have hne : p' ≠ p := fun hpp => heq (hpp ▸ hx)
      have hnode := halike.node x heq
      rw [hfit.2 p' hp' (by simp [hne, hleft]) x hx] at hnode
      exact sameNode_none hnode

/-- What a local command changes keeps the disk steady. -/
theorem local_keeps (hlocal : c.Local tools case) {s : Stage} (hs : s ∈ Stage.all) (captured : Bool)
    (memory : σ) {m : Machine} (h : c.Steady cases area d₀ m.disk)
    (hfiled : c.Filed d₀ case m.disk) :
    AlikeOff (c.own d₀ case) m.disk
      (tools (c.issuedCommand case captured s) memory m).machine.disk ∧
    c.Steady cases area d₀ (tools (c.issuedCommand case captured s) memory m).machine.disk ∧
    c.Filed d₀ case (tools (c.issuedCommand case captured s) memory m).machine.disk ∧
    (tools (c.issuedCommand case captured s) memory m).machine.cancelled = m.cancelled := by
  have hplaces := hapart.places_eq hcase h
  obtain ⟨halike, hfiles, hcancelled⟩ :=
    hlocal.changes s hs captured memory m (hfiled.ready hplaces)
  rw [← hplaces] at halike hfiles
  refine ⟨halike, h.trans hcase (halike.mono Set.subset_union_left) ?_, hfiles, hcancelled⟩
  exact linkFree_of_alikeOff h.linkFree halike fun x hx hmem =>
    hapart.own_notMem_area hcase hmem hx

theorem perform_keeps (hlocal : c.Local tools case) {s : Stage} (hs : s ∈ Stage.all)
    {log : Option CaseLog} (hlog : ∀ l ∈ log, l.location ∈ area)
    (h : c.Steady cases area d₀ w.disk) (hfiled : c.Filed d₀ case w.disk)
    (records : List StageRecord) {stages : List Stage} (hstages : stages ⊆ Stage.all) :
    c.Keeps area d₀ case (.checking (c.perform tools case s w log).2.2 records stages) w
      (c.perform tools case s w log).2.1 := by
  obtain ⟨e, log', captured, hbefore, _, hafter, hcancelled⟩ := c.perform_logged tools case s w log
  have hoff : ∀ x ∈ c.own d₀ case, x ∉ area := fun x hx => hapart.own_notMem_area hcase hx
  obtain ⟨halike₁, hsteady₁, hlog₁⟩ := logged_keeps hcase h hlog hbefore
  obtain ⟨halike₂, hsteady₂, hfiled₂, hcancelled₂⟩ := local_keeps hapart hcase hlocal hs captured
    w.memory (m := ⟨e, w.machine.cancelled⟩) hsteady₁ (hfiled.of_alikeOff halike₁ hoff)
  obtain ⟨halike₃, hsteady₃, hlog₃⟩ := logged_keeps hcase hsteady₂ hlog₁ hafter
  refine ⟨?_, hsteady₃.linkFree, ⟨hlog₃, hstages, hfiled₂.of_alikeOff halike₃ hoff⟩, ?_⟩
  · exact ((halike₁.mono Set.subset_union_right).trans (halike₂.mono Set.subset_union_left)).trans
      (halike₃.mono Set.subset_union_right)
  · exact hcancelled.trans hcancelled₂

/-- **One move** changes nothing but the artifacts of its case and the area of the logs. -/
theorem move_keeps (hlocal : c.Local tools case)
    (hlogs : ∀ logs ∈ c.logs, logs.Aside id cases area (c.spots cases area d₀) d₀)
    (h : c.Steady cases area d₀ w.disk) {p : Point} (hfit : c.Fit area d₀ case p w.disk) :
    c.Keeps area d₀ case (c.move tools id case (p, w)).1 w (c.move tools id case (p, w)).2 := by
  have hstay : ∀ p', c.Fit area d₀ case p' w.disk → c.Keeps area d₀ case p' w w :=
    fun _ hfit' => ⟨AlikeOff.refl _, h.linkFree, hfit', rfl⟩
  cases p with
  | clearing left =>
    cases left with
    | nil => exact (openLog_keeps hapart hcase hlogs h hfit.filed).2
    | cons p left =>
      cases hdiscard : Artifacts.discard w.disk p with
      | ok e =>
        rw [c.move_removed tools id case left hdiscard]
        exact discard_keeps hapart hcase h hfit hdiscard
      | error f =>
        rw [c.move_stuck tools id case left hdiscard]
        exact (hstay (.done (resultOf case [hinderedRecord .interpret f])) trivial).of_machine rfl
  | checking log records stages =>
    obtain ⟨hlog, hstages, hfiled⟩ := hfit
    cases stages with
    | nil =>
      obtain ⟨halike, hlayout, hcancelled⟩ := closeLog_logged w log
      exact ⟨halike.mono fun x hx => Or.inr (location_subset hlog hx),
        h.linkFree.of_layout hlayout, trivial, hcancelled⟩
    | cons s rest =>
      cases hh : c.hindrance? case s w.machine with
      | some reason =>
        have hfit' : c.Fit area d₀ case
            (.checking log (records ++ [hinderedRecord s reason.failure]) []) w.disk :=
          ⟨hlog, by simp, hfiled⟩
        rw [c.move_hindered tools id case log records rest hh]
        exact (hstay _ hfit').of_machine rfl
      | none =>
        rw [c.move_checked tools id case log records rest hh]
        exact hstay (.performing log records s rest) ⟨hlog, hstages, hfiled⟩
  | performing log records s rest =>
    obtain ⟨hlog, hstages, hfiled⟩ := hfit
    have hrest : (if (c.perform tools case s w log).1.passed then rest else []) ⊆ Stage.all := by
      split
      · exact List.Subset.trans (List.subset_cons_self s rest) hstages
      · simp
    exact (perform_keeps hapart hcase hlocal (hstages List.mem_cons_self) hlog h hfiled
      (records ++ [(c.perform tools case s w log).1]) hrest).of_machine rfl
  | done r => exact hstay _ trivial

/-! ### One move on two worlds -/

theorem discard_alike (h : c.Steady cases area d₀ d) (h' : c.Steady cases area d₀ d')
    (hown : ∀ x ∈ c.own d₀ case, SameNode True (d.node? x) (d'.node? x)) {p : Text}
    (hp : p ∈ (c.artifacts case).paths) :
    Agree (fun e e' => ∀ x ∈ c.own d₀ case, SameNode True (e.node? x) (e'.node? x))
      (Artifacts.discard d p) (Artifacts.discard d' p) := by
  have hbelow : ∀ x, d.spot? p = some x → ∀ t,
      SameNode True (d.node? (x ++ [t])) (d'.node? (x ++ [t])) := by
    intro x hx t
    rw [← hapart.spot?_eq hcase h hp] at hx
    exact (h.alike.symm.trans h'.alike).node _
      (hapart.child_notMem hcase (Artifacts.mem_places.mpr ⟨p, hp, hx⟩) t)
  rcases (hapart.sameView hcase h h' hown).discard hp hbelow with ⟨e, e', he, he', _⟩ | ⟨f, hf, hf'⟩
  · refine Or.inl ⟨e, e', he, he', fun x hx => ?_⟩
    obtain ⟨halike, hgone⟩ := discard_effect he
    obtain ⟨halike', hgone'⟩ := discard_effect he'
    rw [← hapart.spot?_eq hcase h hp] at halike hgone
    rw [← hapart.spot?_eq hcase h' hp] at halike' hgone'
    by_cases hspot : d₀.spot? p = some x
    · exact Or.inl (by rw [hgone x hspot, hgone' x hspot])
    · exact ((halike.node x hspot).symm.trans (hown x hx)).trans (halike'.node x hspot)
  · exact Or.inr ⟨f, hf, hf'⟩

theorem perform_alike (hlocal : c.Local tools case) {s : Stage} (hs : s ∈ Stage.all)
    {log log' : Option CaseLog} (hlog : ∀ l ∈ log, l.location ∈ area)
    (hlog' : ∀ l ∈ log', l.location ∈ area) (h : c.Steady cases area d₀ w.disk)
    (h' : c.Steady cases area d₀ w'.disk) (hfiled : c.Filed d₀ case w.disk)
    (hcancelled : w.machine.cancelled = w'.machine.cancelled)
    (hown : ∀ x ∈ c.own d₀ case, SameNode True (w.disk.node? x) (w'.disk.node? x)) :
    (c.perform tools case s w log).1.untimed = (c.perform tools case s w' log').1.untimed ∧
    ∀ x ∈ c.own d₀ case, SameNode True ((c.perform tools case s w log).2.1.disk.node? x)
      ((c.perform tools case s w' log').2.1.disk.node? x) := by
  have hoff : ∀ x ∈ c.own d₀ case, x ∉ area := fun x hx => hapart.own_notMem_area hcase hx
  obtain ⟨e, log₁, captured, hbefore, hrecord, hafter, _⟩ := c.perform_logged tools case s w log
  obtain ⟨e', log₁', captured', hbefore', hrecord', hafter', _⟩ :=
    c.perform_logged tools case s w' log'
  -- The headings do not change what the case sees.
  obtain ⟨halike, hsteady, hlog₁⟩ := logged_keeps hcase h hlog hbefore
  obtain ⟨halike', hsteady', hlog₁'⟩ := logged_keeps hcase h' hlog' hbefore'
  have hfiled₁ := hfiled.of_alikeOff halike hoff
  have hview := hapart.sameView hcase hsteady hsteady' (own_alike hown halike halike' hoff hoff)
  have hplaces := hapart.places_eq hcase hsteady
  obtain ⟨hending, hnodes⟩ := hlocal.depends s hs captured captured' w.memory w'.memory
    ⟨e, w.machine.cancelled⟩ ⟨e', w'.machine.cancelled⟩ (hfiled₁.ready hplaces) hview hcancelled
  rw [← hplaces] at hnodes
  have hfiled₁' : c.Filed d₀ case e' := by
    have hready := hview.ready (hfiled₁.ready hplaces)
    intro x hx
    exact hready x (by rw [← hapart.places_eq hcase hsteady']; exact hx)
  -- Nor does the output.
  obtain ⟨_, hsteady₂, _⟩ := local_keeps hapart hcase hlocal hs captured w.memory
    (m := ⟨e, w.machine.cancelled⟩) hsteady hfiled₁
  obtain ⟨_, hsteady₂', _⟩ := local_keeps hapart hcase hlocal hs captured' w'.memory
    (m := ⟨e', w'.machine.cancelled⟩) hsteady' hfiled₁'
  obtain ⟨halike₃, _⟩ := logged_keeps hcase hsteady₂ hlog₁ hafter
  obtain ⟨halike₃', _⟩ := logged_keeps hcase hsteady₂' hlog₁' hafter'
  refine ⟨?_, own_alike hnodes halike₃ halike₃' hoff hoff⟩
  rw [hrecord, hrecord']
  exact c.performedRecord_untimed case s captured captured' hending

/-- **One move**, from disks that look the same to the case, comes to the same point and
    leaves disks that look the same. -/
theorem move_alike (hlocal : c.Local tools case)
    (hlogs : ∀ logs ∈ c.logs, logs.Aside id cases area (c.spots cases area d₀) d₀)
    (h : c.Steady cases area d₀ w.disk) (h' : c.Steady cases area d₀ w'.disk) {p p' : Point}
    (hfit : c.Fit area d₀ case p w.disk) (hfit' : c.Fit area d₀ case p' w'.disk)
    (hpoint : p.untimed = p'.untimed) (hcancelled : w.machine.cancelled = w'.machine.cancelled)
    (hown : ∀ x ∈ c.own d₀ case, SameNode True (w.disk.node? x) (w'.disk.node? x)) :
    (c.move tools id case (p, w)).1.untimed = (c.move tools id case (p', w')).1.untimed ∧
    ∀ x ∈ c.own d₀ case, SameNode True ((c.move tools id case (p, w)).2.disk.node? x)
      ((c.move tools id case (p', w')).2.disk.node? x) := by
  have hoff : ∀ x ∈ c.own d₀ case, x ∉ area := fun x hx => hapart.own_notMem_area hcase hx
  cases p <;> cases p' <;> simp only [Point.untimed, reduceCtorEq, Point.clearing.injEq,
    Point.checking.injEq, Point.performing.injEq, Point.done.injEq, true_and] at hpoint
  case clearing.clearing left left' =>
    obtain rfl := hpoint
    cases left with
    | nil =>
      have hopen := (openLog_keeps hapart hcase hlogs h hfit.filed).1
      have hopen' := (openLog_keeps hapart hcase hlogs h' hfit'.filed).1
      exact ⟨rfl, own_alike hown hopen hopen' hoff hoff⟩
    | cons p left =>
      rcases discard_alike hapart hcase h h' hown (hfit.1 List.mem_cons_self) with
        ⟨e, e', he, he', hnodes⟩ | ⟨f, hf, hf'⟩
      · rw [c.move_removed tools id case left he, c.move_removed tools id case left he']
        exact ⟨rfl, hnodes⟩
      · rw [c.move_stuck tools id case left hf, c.move_stuck tools id case left hf']
        exact ⟨rfl, hown⟩
  case checking.checking log records stages log' records' stages' =>
    obtain ⟨hrecords, rfl⟩ := hpoint
    obtain ⟨hlog, _, hfiled⟩ := hfit
    cases stages with
    | nil =>
      have hclosed := (closeLog_logged w log).1.mono (location_subset hlog)
      have hclosed' := (closeLog_logged w' log').1.mono (location_subset hfit'.1)
      refine ⟨congrArg Point.done (resultOf_untimed case hrecords), ?_⟩
      exact own_alike hown hclosed hclosed' hoff hoff
    | cons s rest =>
      have hview := hapart.sameView hcase h h' hown
      have hready := hfiled.ready (hapart.places_eq hcase h)
      have hsame := hview.hindrance? hready hcancelled s
      cases hh : c.hindrance? case s w.machine with
      | some reason =>
        rw [c.move_hindered tools id case log records rest hh,
          c.move_hindered tools id case log' records' rest (hsame.symm.trans hh)]
        refine ⟨?_, hown⟩
        simp only [Point.untimed, List.map_append, hrecords]
      | none =>
        rw [c.move_checked tools id case log records rest hh,
          c.move_checked tools id case log' records' rest (hsame.symm.trans hh)]
        refine ⟨?_, hown⟩
        simp only [Point.untimed, hrecords]
  case performing.performing log records s rest log' records' s' rest' =>
    obtain ⟨hrecords, rfl, rfl⟩ := hpoint
    obtain ⟨hlog, hstages, hfiled⟩ := hfit
    obtain ⟨hrecord, hnodes⟩ := perform_alike hapart hcase hlocal (hstages List.mem_cons_self) hlog
      hfit'.1 h h' hfiled hcancelled hown
    have hpassed : (c.perform tools case s w log).1.passed =
        (c.perform tools case s w' log').1.passed := by
      rw [← StageRecord.passed_untimed, hrecord, StageRecord.passed_untimed]
    rw [move_performed, move_performed]
    refine ⟨?_, hnodes⟩
    simp only [Point.untimed, List.map_append, List.map_cons, List.map_nil, hrecords, hrecord,
      hpassed]
  case done.done r r' => exact ⟨congrArg Point.done hpoint, hown⟩

end Moves

/-! ### Turns -/

section Turns

variable {σ : Type} (c : Course) (tools : Toolchain σ) (id : Text) (cases : List Case)
  (area : Set Location) (w : World σ)

/-- A case after a number of moves that it has made alone. -/
def alone (case : Case) (n : Nat) : Point × World σ :=
  (c.move tools id case)^[n] (c.outset case, w)

/-- After some turns every case is as far as it is alone after as many moves of its own, and
    its artifacts look the same. -/
structure InStep (turns : List Case) (s : Shared σ) : Prop where
  steady : c.Steady cases area w.disk s.world.disk
  cancelled : s.world.machine.cancelled = w.machine.cancelled
  fit : ∀ case ∈ cases, c.Fit area w.disk case (s.points case) s.world.disk
  point : ∀ case ∈ cases, (s.points case).untimed =
    (c.alone tools id w case (turns.count case)).1.untimed
  own : ∀ case ∈ cases, ∀ x ∈ c.own w.disk case, SameNode True (s.world.disk.node? x)
    ((c.alone tools id w case (turns.count case)).2.disk.node? x)

variable {c tools id cases area w}
variable (hapart : c.Apart cases area w.disk)
  (hdisjoint : ∀ a ∈ cases, ∀ b ∈ cases, a ≠ b → ∀ x ∈ c.own w.disk a, x ∉ c.own w.disk b)
  (hlinks : w.disk.LinkFree area)
  (hlogs : ∀ logs ∈ c.logs, logs.Aside id cases area (c.spots cases area w.disk) w.disk)
  (hlocal : ∀ case ∈ cases, c.Local tools case)

include hapart hlinks hlogs hlocal

/-- What holds of a case all along when it moves alone. -/
theorem alone_keeps {case : Case} (hcase : case ∈ cases) (n : Nat) :
    c.Steady cases area w.disk (c.alone tools id w case n).2.disk ∧
    c.Fit area w.disk case (c.alone tools id w case n).1 (c.alone tools id w case n).2.disk ∧
    (c.alone tools id w case n).2.machine.cancelled = w.machine.cancelled := by
  induction n with
  | zero => exact ⟨⟨AlikeOff.refl _, hlinks⟩, c.fit_outset area w.disk case w.disk, rfl⟩
  | succ n ih =>
    obtain ⟨hsteady, hfit, hcancelled⟩ := ih
    have hkeeps := move_keeps hapart hcase (hlocal case hcase) hlogs hsteady hfit
    rw [alone, Function.iterate_succ_apply', ← alone]
    exact ⟨hsteady.trans hcase hkeeps.alike hkeeps.linkFree, hkeeps.fit,
      hkeeps.cancelled.trans hcancelled⟩

include hdisjoint

/-- A turn of one case keeps all of them in step. -/
theorem InStep.turn {turns : List Case} {s : Shared σ}
    (h : c.InStep tools id cases area w turns s) {case : Case} (hcase : case ∈ cases) :
    c.InStep tools id cases area w (turns ++ [case]) (c.turn tools id s case) := by
  have hkeeps := move_keeps hapart hcase (hlocal case hcase) hlogs h.steady (h.fit case hcase)
  -- What belongs to another case is not touched.
  have hoff : ∀ other ∈ cases, other ≠ case →
      ∀ x ∈ c.own w.disk other, x ∉ c.own w.disk case ∪ area := by
    rintro other hother hne x hx (hmem | hmem)
    · exact hdisjoint other hother case hcase hne x hx hmem
    · exact hapart.own_notMem_area hother hx hmem
  have hcount : ∀ other, other ≠ case → (turns ++ [case]).count other = turns.count other := by
    intro other hne
    simp [List.count_append, hne.symm]
  obtain ⟨hsteady, hfit, hcancelled⟩ := alone_keeps hapart hlinks hlogs hlocal hcase
    (turns.count case)
  have hself : c.alone tools id w case ((turns ++ [case]).count case) =
      c.move tools id case (c.alone tools id w case (turns.count case)) := by
    rw [List.count_append, List.count_singleton_self, alone, Function.iterate_succ_apply', ← alone]
  have hmove := move_alike hapart hcase (hlocal case hcase) hlogs h.steady hsteady
    (h.fit case hcase) hfit (h.point case hcase) (h.cancelled.trans hcancelled.symm)
    (h.own case hcase)
  refine ⟨h.steady.trans hcase hkeeps.alike hkeeps.linkFree,
    hkeeps.cancelled.trans h.cancelled, ?_, ?_, ?_⟩
  -- Each time the case whose turn it is moves as it does alone, and the others stay.
  · intro other hother
    by_cases hne : other = case
    · subst hne
      simpa [Course.turn] using hkeeps.fit
    · simpa [Course.turn, hne] using (h.fit other hother).of_alikeOff hkeeps.alike
        (hoff other hother hne)
  · intro other hother
    by_cases hne : other = case
    · subst hne
      rw [hself]
      simpa [Course.turn] using hmove.1
    · rw [hcount other hne]
      simpa [Course.turn, hne] using h.point other hother
  · intro other hother x hx
    by_cases hne : other = case
    · subst hne
      rw [hself]
      exact hmove.2 x hx
    · rw [hcount other hne]
      exact (hkeeps.alike.node x (hoff other hother hne x hx)).symm.trans (h.own other hother x hx)

/-- Whatever the order of the turns, all cases stay in step. -/
theorem interleave_inStep (turns : List Case) (hturns : turns ⊆ cases) :
    c.InStep tools id cases area w turns (c.interleave tools id w turns) := by
  induction turns using List.reverseRecOn with
  | nil =>
    exact ⟨⟨AlikeOff.refl _, hlinks⟩, rfl, fun case _ => c.fit_outset area w.disk case w.disk,
      fun _ _ => rfl, fun _ _ _ _ => Or.inl rfl⟩
  | append_singleton turns case ih =>
    rw [interleave_concat]
    exact (ih (List.Subset.trans (List.subset_append_left _ _) hturns)).turn hapart hdisjoint
      hlinks hlogs hlocal (hturns (by simp))

end Turns

/-- **Cases do not disturb each other.** Selected cases take turns on one world, in any order.
    If the toolchain is local to each of them, no artifact and no log lies on the way to a
    source or to an artifact, and the logs keep to an area of their own, then a case is done
    after ten turns. And once it is done, it has the result that it has alone, durations
    aside, and its artifacts are what they are when it has run alone. -/
theorem cases_isolated {σ : Type} (c : Course) (tools : Toolchain σ) (id : Text) (w : World σ)
    {d : Disk} {dir suffix pattern : Text} {cases : List Case}
    (hselect : Selection.select d dir suffix pattern = .ok cases) (area : Set Location)
    (hapart : c.Apart cases area w.disk) (hlinks : w.disk.LinkFree area)
    (hlogs : ∀ logs ∈ c.logs, logs.Aside id cases area (c.spots cases area w.disk) w.disk)
    (hlocal : ∀ case ∈ cases, c.Local tools case) (turns : List Case) (hturns : turns ⊆ cases)
    (case : Case) (hcase : case ∈ cases) :
    (10 ≤ turns.count case → ∃ r, (c.interleave tools id w turns).points case = .done r) ∧
    ∀ r, (c.interleave tools id w turns).points case = .done r →
      r.untimed = (c.run tools id case w).1.untimed ∧
      c.SameView case (c.interleave tools id w turns).world.disk
        (c.run tools id case w).2.disk := by
  obtain ⟨hnodup, hbase⟩ := Selection.select_names hselect
  have hdisjoint : ∀ a ∈ cases, ∀ b ∈ cases, a ≠ b →
      ∀ x ∈ c.own w.disk a, x ∉ c.own w.disk b := by
    intro a ha b hb hne x hx
    refine Artifacts.places_disjoint (hbase a ha) (hbase b hb) (fun hname => hne ?_) hx
    exact List.inj_on_of_nodup_map hnodup ha hb hname
  have hstep := interleave_inStep hapart hdisjoint hlinks hlogs hlocal turns hturns
  have hpoint := hstep.point case hcase
  constructor
  · intro hcount
    rw [alone, c.move_iterate_eq_run tools id case w hcount] at hpoint
    cases hdone : (c.interleave tools id w turns).points case with
    | done r => exact ⟨r, rfl⟩
    | _ => simp [hdone, Point.untimed] at hpoint
  · intro r hdone
    rw [hdone] at hpoint
    obtain ⟨r', hr'⟩ : ∃ r', (c.alone tools id w case (turns.count case)).1 = .done r' := by
      cases halone : (c.alone tools id w case (turns.count case)).1 with
      | done r' => exact ⟨r', rfl⟩
      | _ => simp [halone, Point.untimed] at hpoint
    -- Alone the case is done too, and further moves change nothing.
    have hrun : c.alone tools id w case (turns.count case) =
        (.done (c.run tools id case w).1, (c.run tools id case w).2) := by
      rw [← c.move_iterate_eq_run tools id case w (n := 10 + turns.count case) (by omega),
        Function.iterate_add_apply, ← alone]
      generalize c.alone tools id w case (turns.count case) = a at hr' ⊢
      obtain ⟨p, w'⟩ := a
      obtain rfl : p = .done r' := hr'
      exact (c.move_iterate_done tools id case r' w' 10).symm
    have hsteady := (alone_keeps hapart hlinks hlogs hlocal hcase (turns.count case)).1
    have hown := hstep.own case hcase
    rw [hrun] at hpoint hsteady hown
    exact ⟨Point.done.inj hpoint, hapart.sameView hcase hstep.steady hsteady hown⟩

/-- Whether cases are apart from each other and from logs below a directory can be told from
    the locations on the ways. -/
theorem apart_below {c : Course} {cases : List Case} {base : Location} {d₀ : Disk}
    (hways : ∀ case ∈ cases,
      ∀ x ∈ d₀.way true case.source ++ (c.artifacts case).paths.flatMap d₀.approach,
        (∀ other ∈ cases, x ∉ (c.artifacts other).places d₀) ∧ ¬ base <+: x)
    (hlogs : ∀ case ∈ cases, ∀ x ∈ (c.artifacts case).places d₀,
      ¬ base <+: x ∧ x ≠ base.dropLast) :
    c.Apart cases {l | base <+: l} d₀ := by
  have hoff : ∀ case ∈ cases,
      ∀ x ∈ d₀.way true case.source ++ (c.artifacts case).paths.flatMap d₀.approach,
        x ∉ c.spots cases {l | base <+: l} d₀ := by
    rintro case hcase x hx (⟨other, hother, hmem⟩ | hbelow)
    · exact (hways case hcase x hx).1 other hother hmem
    · exact (hways case hcase x hx).2 hbelow
  constructor
  · intro case hcase x hx
    exact hoff case hcase x (List.mem_append_left _ hx)
  · intro case hcase p hp x hx
    exact hoff case hcase x (List.mem_append_right _ (List.mem_flatMap.mpr ⟨p, hp, hx⟩))
  · intro case hcase x hx
    obtain ⟨hbelow, hne⟩ := hlogs case hcase x hx
    refine ⟨hbelow, fun t ht => ?_⟩
    rcases List.prefix_concat_iff.mp ht with heq | hbelow'
    · exact hne (by rw [heq, List.dropLast_concat])
    · exact hbelow hbelow'

end Course

/-! ### Samples -/

namespace Sample

/-- The sources of the two cases, and a directory for logs. -/
def shared : Disk := sourced.put [("g" : Text)] (.dir 0o755 ⟨0, 0⟩)

/-- The directory of the logs of a run. -/
def logDir : Location := [("g" : Text)] ++ [("testrun-" : Text) ++ "r"]

theorem select_shared : Selection.select shared "/t" ".x" [] = .ok pair := by
  have hnames : shared.readDir "/t" = .ok [("a.x" : Text), ("b.x" : Text)] := by rfl
  rw [Selection.select_of_sorted hnames (by decide +kernel)]
  rfl

/-- The logs of the course keep to their directory. -/
theorem course_aside : ∀ logs ∈ course.logs,
    logs.Aside "r" pair {l | logDir <+: l} (course.spots pair {l | logDir <+: l} shared)
      shared := by
  have hway : ∀ k ∈ [[], [("g" : Text)]],
      (∀ case ∈ pair, k ∉ (course.artifacts case).places shared) ∧ ¬ logDir <+: k ∧
        (shared.node? k).map Node.isDir = some true := by decide +kernel
  have hplain : Path.Plain [("g" : Text)] :=
    Path.Plain.nil.concat ⟨by decide, by decide, by decide, by decide⟩
  have hbase : (⟨"/g"⟩ : LogStore).base = Path.absolute [("g" : Text)] := by decide
  have hrun : Path.slash ∉ ("r" : Text) := by decide
  have hnames : ∀ case ∈ pair, Path.slash ∉ case.name := by decide +kernel
  rintro logs ⟨⟩
  refine LogStore.source_aside hbase hplain hrun hnames fun k hk => ?_
  obtain ⟨hartifacts, hlogs, hdir⟩ := hway k (by simpa [List.prefix_cons_iff] using hk)
  constructor
  · rintro (⟨case, hcase, hmem⟩ | hbelow)
    · exact hartifacts case hcase hmem
    · exact hlogs hbelow
  · obtain ⟨n, hn, hdir⟩ := Option.map_eq_some_iff.mp hdir
    cases n with
    | dir m t => exact ⟨m, t, hn⟩
    | file _ _ _ => simp [Node.isDir] at hdir
    | link _ => simp [Node.isDir] at hdir

theorem shared_linkFree : shared.LinkFree {l | logDir <+: l} := by
  have hunlinked : shared.Unlinked logDir := by decide +kernel
  exact fun l hl => hunlinked l (Or.inr hl)

/-- Two cases take ten turns each, one after the other, and the second passes as it does
    alone. -/
theorem cases_isolated_pair : ∃ r,
    (course.interleave (.copying "/t") "r" (world shared)
      (List.replicate 10 pair).flatten).points ⟨"/t/b.x", "b.x"⟩ = .done r ∧
    r.verdict = .pass ∧
    r.untimed = (course.run (.copying "/t") "r" ⟨"/t/b.x", "b.x"⟩ (world shared)).1.untimed ∧
    course.SameView ⟨"/t/b.x", "b.x"⟩
      (course.interleave (.copying "/t") "r" (world shared)
        (List.replicate 10 pair).flatten).world.disk
      (course.run (.copying "/t") "r" ⟨"/t/b.x", "b.x"⟩ (world shared)).2.disk := by
  have hnames : ∀ case ∈ pair, case.name = Path.base case.source := by decide +kernel
  have hpass : (course.run (.copying "/t") "r" ⟨"/t/b.x", "b.x"⟩
      (world shared)).1.verdict = .pass := by decide +kernel
  obtain ⟨hdone, hsame⟩ := Course.cases_isolated course (.copying "/t") "r" (world shared)
    select_shared {l | logDir <+: l}
    (Course.apart_below (by decide +kernel) (by decide +kernel)) shared_linkFree course_aside
    (fun case hcase => Course.copying_local rfl rfl (hnames case hcase))
    (List.replicate 10 pair).flatten (by decide +kernel) ⟨"/t/b.x", "b.x"⟩ (by decide +kernel)
  obtain ⟨r, hr⟩ := hdone (by decide +kernel)
  obtain ⟨hresult, hview⟩ := hsame r hr
  exact ⟨r, hr, (congrArg CaseResult.verdict hresult).trans hpass, hresult, hview⟩

/-- The verdict on a case that is done. -/
def verdict? : Point → Option Verdict
  | .done r => some r.verdict
  | _ => none

/-- A scratch directory `/s` that is reached through the assembly of the first case. -/
def detour : Disk :=
  ((sourced.put [("d" : Text)] (.dir 0o755 ⟨0, 0⟩)).put
    [("d" : Text), ("a.x.s" : Text)] (.link ".")).put [("s" : Text)] (.link "d/a.x.s")

/-- Sources that are reached through the assembly of the first case in `/e`. -/
def indirect : Disk :=
  ((sourced.put [("e" : Text)] (.dir 0o755 ⟨0, 0⟩)).put
    [("e" : Text), ("a.x.s" : Text)] (.link "../t")).put [("q" : Text)] (.link "e/a.x.s")

/-- The cases of these sources. -/
def indirectPair : List Case := [⟨"/q/a.x", "a.x"⟩, ⟨"/q/b.x", "b.x"⟩]

/-- The log of the second case leads to the assembly of the first. -/
def entangled : Disk :=
  (shared.put logDir (.dir 0o755 ⟨0, 0⟩)).put (logDir ++ [("b.x.log" : Text)]) (.link "/t/a.x.s")

theorem select_detour : Selection.select detour "/t" ".x" [] = .ok pair := by
  have hnames : detour.readDir "/t" = .ok [("a.x" : Text), ("b.x" : Text)] := by rfl
  rw [Selection.select_of_sorted hnames (by decide +kernel)]
  rfl

theorem select_indirect : Selection.select indirect "/q" ".x" [] = .ok indirectPair := by
  have hnames : indirect.readDir "/q" = .ok [("a.x" : Text), ("b.x" : Text)] := by rfl
  rw [Selection.select_of_sorted hnames (by decide +kernel)]
  rfl

theorem select_entangled : Selection.select entangled "/t" ".x" [] = .ok pair := by
  have hnames : entangled.readDir "/t" = .ok [("a.x" : Text), ("b.x" : Text)] := by rfl
  rw [Selection.select_of_sorted hnames (by decide +kernel)]
  rfl

/-- The course without logs, and with another scratch directory. -/
def moved (scratch : Text) : Course := { course with scratchDir := scratch, logs := none }

/-- The cases are selected, the toolchain is local to them, and no artifact is a source. -/
structure Proper (c : Course) (dir : Text) (cases : List Case) (d : Disk) : Prop where
  selected : Selection.select d dir ".x" [] = .ok cases
  tools : ∀ case ∈ cases, c.Local (.copying c.scratchDir) case
  sources : ∀ case ∈ cases, ∀ other ∈ cases, ∀ x ∈ (c.artifacts other).places d,
    d.place true case.source ≠ .ok (.found x)

/-- Cases do disturb each other if an artifact lies on the way to the scratch directory or to
    the sources, or if a log is at the place of an artifact. Here the second case runs after
    the first. -/
theorem cases_can_disturb :
    (Proper (moved "/s") "/t" pair detour ∧
      verdict? (((moved "/s").interleave (.copying "/s") "r" (world detour)
        (pair.flatMap (List.replicate 10))).points ⟨"/t/b.x", "b.x"⟩) =
          some (.failedAt .interpret) ∧
      ((moved "/s").run (.copying "/s") "r" ⟨"/t/b.x", "b.x"⟩ (world detour)).1.verdict =
        .pass) ∧
    (Proper (moved "/e") "/q" indirectPair indirect ∧
      verdict? (((moved "/e").interleave (.copying "/e") "r" (world indirect)
        (indirectPair.flatMap (List.replicate 10))).points ⟨"/q/b.x", "b.x"⟩) =
          some (.failedAt .interpret) ∧
      ((moved "/e").run (.copying "/e") "r" ⟨"/q/b.x", "b.x"⟩ (world indirect)).1.verdict =
        .pass) ∧
    (Proper course "/t" pair entangled ∧
      (course.interleave (.copying "/t") "r" (world entangled)
        (pair.flatMap (List.replicate 10))).world.disk.contents "/t/a.x.s" ≠
          (course.run (.copying "/t") "r" ⟨"/t/a.x", "a.x"⟩ (world entangled)).2.disk.contents
            "/t/a.x.s") := by
  have hpair : ∀ case ∈ pair, case.name = Path.base case.source := by decide +kernel
  have hindirect : ∀ case ∈ indirectPair, case.name = Path.base case.source := by decide +kernel
  refine ⟨⟨⟨select_detour, fun case hcase => ?_, by decide +kernel⟩, by decide +kernel,
    by decide +kernel⟩, ⟨⟨select_indirect, fun case hcase => ?_, by decide +kernel⟩,
    by decide +kernel, by decide +kernel⟩, ⟨select_entangled, fun case hcase => ?_,
    by decide +kernel⟩, by decide +kernel⟩
  · exact Course.copying_local rfl rfl (hpair case hcase)
  · exact Course.copying_local rfl rfl (hindirect case hcase)
  · exact Course.copying_local rfl rfl (hpair case hcase)

end Sample

end Gauntlet
