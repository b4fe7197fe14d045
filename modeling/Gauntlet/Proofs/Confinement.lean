import Gauntlet.Proofs.CleanPath

/-! # Artifacts keep to their directory

  A case owns two artifacts and one log. Whatever its source is called, and wherever the links
  of its source lead, their paths are entries of the scratch directory and of the directory of
  the run (`Path.Entry`): the name of a case has no slash, or is the root, and a suffix makes
  an ordinary component of it. Different cases of a selection own different paths.

  Removing artifacts is described by what it may do to a disk (`Artifacts.Pruned`), which one
  removal keeps (`Pruned.removed`):

  - nothing but the two artifacts goes, and only the time of their directory changes;
  - a directory that holds something stays with all it holds, and makes the removal fail. The
    exception is a binary whose path leads through the assembly: without the assembly the path
    leads nowhere, and the binary counts as missing.
-/

namespace Gauntlet

/-! ### Entries by name -/

namespace Path

/-- A path is an entry of a directory: by its form, and by where it leads on any disk. -/
structure Entry (dir p : Text) : Prop where
  ordinary : Ordinary (base p)
  joined : p = join [dir, base p]
  parent : Path.parent p = dir
  place : ∀ (d : Disk) (x : Location), d.spot? p = some x →
    d.place true dir = .ok (.found x.dropLast)

theorem entry_join {c : Text} (hc : Ordinary c) (q : Text) :
    Entry (clean q) (join [clean q, c]) := by
  have hbase := base_join hc (clean q)
  have hchild := child_join hc q
  refine ⟨?_, ?_, hchild.parent_eq hc (clean_clean q), fun d x hx => ?_⟩
  · rw [hbase]
    exact hc
  · rw [hbase]
  · exact Disk.place_of_child hchild hc hx

/-- A slash in front of a component does not count. -/
theorem join_stem {name : Text} (hname : IsBase name) (u q : Text) :
    join [clean q, name ++ u] = join [clean q, stem name ++ u] := by
  rcases hname with rfl | ⟨_, hname⟩
  · -- The root has an empty stem; in front of the suffix it makes one more empty piece.
    have hslash : [slash] ++ u = [] ++ slash :: u := rfl
    have hstem : stem [slash] ++ u = u := rfl
    rw [join_eq_clean (clean_ne_nil q), join_eq_clean (clean_ne_nil q), hstem]
    refine clean_congr ?_ ?_
    · rw [isAbsolute_append (clean_ne_nil q), isAbsolute_append (clean_ne_nil q)]
    · rw [pieces, pieces, Text.splitOn_append_sep, hslash, Text.splitOn_append_sep,
        Text.splitOn_append_sep]
      simp [Text.splitOn]
  · rw [stem_of_noSlash hname]

theorem ordinary_stem (name : Text) {u : Text} (hu : Suffix u) : Ordinary (stem name ++ u) := by
  obtain ⟨hne, hhere, hup⟩ := hu.ordinary (stem name)
  refine ⟨hne, ?_, hhere, hup⟩
  rw [List.mem_append, not_or]
  exact ⟨by simp [stem], hu.noSlash⟩

/-- What is called after a last component, with a suffix, is an entry of its directory. -/
theorem entry_suffix {name u : Text} (hname : IsBase name) (hu : Suffix u) (q : Text) :
    Entry (clean q) (join [clean q, name ++ u]) := by
  rw [join_stem hname u]
  exact entry_join (ordinary_stem name hu) q

theorem base_suffix {name u : Text} (hname : IsBase name) (hu : Suffix u) (q : Text) :
    base (join [clean q, name ++ u]) = stem name ++ u := by
  rw [join_stem hname u, base_join (ordinary_stem name hu)]

end Path

/-! ### The paths of a case -/

theorem Selection.isBase_caseOf (d : Disk) (source : Text) :
    Path.IsBase (Selection.caseOf d source).name := Path.isBase_base _

theorem LogStore.suffix_log : Path.Suffix ".log" := ⟨by decide, 108, by decide, by decide⟩

theorem LogStore.exists_clean_runDir (s : LogStore) (run : Text) :
    ∃ q, s.runDir run = Path.clean q :=
  Path.exists_clean_join (fun h => absurd (List.append_eq_nil_iff.mp h).1 (by decide)) s.base

/-- A plan that is accepted is resolved at its work directory, or at the working directory if
    it names none. -/
theorem Course.ofPlan_cases {d : Disk} {plan : CoursePlan} {logs : Option LogSource} {c : Course}
    (h : Course.ofPlan d plan logs = .ok c) :
    plan.launcher ≠ [] ∧ plan.scratchDir ≠ [] ∧ ∃ dir, c = Course.ofPlanAt plan dir logs ∧
      (plan.workDir ≠ [] ∧ dir = plan.workDir ∨ plan.workDir = [] ∧ d.workingDir = .ok dir) := by
  unfold Course.ofPlan at h
  split at h
  · simp at h
  · rename_i hlauncher
    split at h
    · simp at h
    · rename_i hscratch
      refine ⟨hlauncher, hscratch, ?_⟩
      split at h
      · rename_i hdir
        exact ⟨plan.workDir, (Except.ok.inj h).symm, Or.inl ⟨hdir, rfl⟩⟩
      · rename_i hdir
        split at h
        · rename_i dir hcwd
          exact ⟨dir, (Except.ok.inj h).symm, Or.inr ⟨not_not.mp hdir, hcwd⟩⟩
        · simp at h

theorem Course.exists_clean_scratchDir {d : Disk} {plan : CoursePlan} {logs : Option LogSource}
    {c : Course} (h : Course.ofPlan d plan logs = .ok c) : ∃ q, c.scratchDir = Path.clean q := by
  obtain ⟨_, hscratch, dir, rfl, _⟩ := Course.ofPlan_cases h
  exact Path.exists_clean_anchor hscratch dir

/-! ### What a removal does -/

namespace Disk

/-- A directory that holds something. -/
def Filled (d : Disk) (x : Location) : Prop :=
  (∃ m t, d.node? x = some (.dir m t)) ∧ ∃ c, (d.node? (x ++ [c])).isSome = true

/-- A directory that holds something cannot be removed. -/
theorem remove_filled {d : Disk} {p : Text} {x : Location} (hx : d.spot? p = some x)
    (h : d.Filled x) : ∃ e, e ≠ .missing ∧ d.remove p = .error ⟨"remove", p, e⟩ := by
  obtain ⟨⟨m, t, hdir⟩, c, hc⟩ := h
  have hnames : d.names x ≠ [] := by
    intro hnil
    have hnone := (names_eq_nil_iff d x).mp hnil c
    simp [hnone] at hc
  rw [remove_of_spot_some hx, hdir]
  by_cases hchangeable : d.changeable x.dropLast = true
  · exact ⟨.notEmpty, by simp, by simp [Node.isDir, hchangeable, hnames]⟩
  · exact ⟨.denied, by simp, by simp [Node.isDir, hchangeable]⟩

end Disk

namespace Artifacts

variable {a : Artifacts} {d d' : Disk} {p : Text} {x y : Location}

/-- The failure to remove a directory that holds something. -/
theorem discard_filled (hx : d.spot? p = some x) (h : d.Filled x) :
    ∃ e, discard d p = .error (staleFailure p e) := by
  obtain ⟨e, he, hremove⟩ := Disk.remove_filled hx h
  refine ⟨⟨"remove", p, e⟩, ?_⟩
  rw [discard, hremove]
  exact if_neg he

/-- One removal finds nothing to remove, or takes away one node that is no full directory. -/
theorem discard_cases (h : discard d p = .ok d') :
    (d' = d ∧ d.Vacant p) ∨
    ∃ x, d.spot? p = some x ∧ (d.node? x).isSome = true ∧ ¬ d.Filled x ∧
      d' = (d.drop x).touchDir x.dropLast := by
  by_cases hsame : d' = d
  · obtain ⟨hvacant, _⟩ := vacant_of_discard h
    exact Or.inl ⟨hsame, hsame ▸ hvacant⟩
  · right
    have hremove : d.remove p = .ok d' := by
      unfold discard at h
      split at h
      · rename_i hremove
        rw [hremove, Except.ok.inj h]
      · split at h
        · exact absurd (Except.ok.inj h).symm hsame
        · simp at h
    obtain ⟨x, hx, rfl⟩ := Disk.remove_eq_ok hremove
    refine ⟨x, hx, ?_, ?_, rfl⟩
    · cases hnode : d.node? x with
      | none => simp [Disk.remove_of_spot_some hx, hnode] at hremove
      | some n => rfl
    · intro hfilled
      obtain ⟨e, _, herror⟩ := Disk.remove_filled hx hfilled
      simp [herror] at hremove

/-- Of a disk nothing has gone but artifacts: other nodes are as they were, apart from the time
    of a directory that has lost one, and an artifact that has gone was no full directory. -/
structure Pruned (a : Artifacts) (d d' : Disk) : Prop where
  cwd : d'.cwd = d.cwd
  now : d'.now = d.now
  mask : d'.mask = d.mask
  elsewhere : ∀ l, l ∉ a.places d → d'.node? l = d.node? l ∨
    ∃ x ∈ a.places d, (d.node? x).isSome = true ∧ d'.node? x = none ∧ l = x.dropLast ∧
      d'.node? l = (d.node? l).map (Node.touched d.now)
  artifacts : ∀ x ∈ a.places d, d'.node? x = d.node? x ∨ (d'.node? x = none ∧ ¬ d.Filled x)

namespace Pruned

theorem refl (a : Artifacts) (d : Disk) : Pruned a d d :=
  ⟨rfl, rfl, rfl, fun _ _ => Or.inl rfl, fun _ _ => Or.inl rfl⟩

/-- What is strictly below an artifact is as it was. -/
theorem below (h : Pruned a d d') (ha : a.Siblings) (hx : x ∈ a.places d) {l : Location}
    (hl : x <+: l) (hne : l ≠ x) : l ∉ a.places d ∧ d'.node? l = d.node? l := by
  -- All artifacts are in one directory, so their locations are equally long.
  have hlength : ∀ y ∈ a.places d, y.length = x.length := by
    intro y hy
    have hdir := congrArg List.length (ha.dropLast_eq hx hy)
    have hpos := List.length_pos_iff.mpr (ne_nil_of_mem_places hx)
    have hpos' := List.length_pos_iff.mpr (ne_nil_of_mem_places hy)
    rw [List.length_dropLast, List.length_dropLast] at hdir
    omega
  have hlonger : x.length < l.length := by
    refine Nat.lt_of_le_of_ne hl.length_le fun heq => hne ?_
    exact (hl.eq_of_length heq).symm
  have hnotMem : l ∉ a.places d := by
    intro hmem
    have := hlength l hmem
    omega
  refine ⟨hnotMem, ?_⟩
  rcases h.elsewhere l hnotMem with hsame | ⟨y, hy, _, _, rfl, _⟩
  · exact hsame
  · have := hlength y hy
    rw [List.length_dropLast] at hlonger
    omega

/-- A full directory stays, with all it holds. -/
theorem whole (h : Pruned a d d') (ha : a.Siblings) (hx : x ∈ a.places d) (hfilled : d.Filled x)
    {l : Location} (hl : x <+: l) : d'.node? l = d.node? l := by
  by_cases hne : l = x
  · subst hne
    exact (h.artifacts l hx).resolve_right fun hgone => hgone.2 hfilled
  · exact (h.below ha hx hl hne).2

theorem filled (h : Pruned a d d') (ha : a.Siblings) (hx : x ∈ a.places d) (hfilled : d.Filled x) :
    d'.Filled x := by
  obtain ⟨⟨m, t, hdir⟩, c, hc⟩ := id hfilled
  refine ⟨⟨m, t, ?_⟩, c, ?_⟩
  · rw [h.whole ha hx hfilled List.prefix_rfl, hdir]
  · rw [h.whole ha hx hfilled (List.prefix_append x [c]), hc]

/-- One more removal. -/
theorem removed (h : Pruned a d d') (ha : a.Siblings) (hy : y ∈ a.places d)
    (hsome : (d'.node? y).isSome = true) (hempty : ¬ d'.Filled y) :
    Pruned a d ((d'.drop y).touchDir y.dropLast) := by
  have hnode : ∀ l, ((d'.drop y).touchDir y.dropLast).node? l =
      if l = y then none
      else if l = y.dropLast then (d'.node? l).map (Node.touched d.now) else d'.node? l := by
    intro l
    have hdir : y.dropLast ≠ y := fun heq => ha.dropLast_notMem hy (heq.symm ▸ hy)
    rw [Disk.node?_touchDir, Disk.node?_drop]
    by_cases hl : l = y
    · rw [hl, if_neg hdir.symm, if_pos rfl, if_pos rfl]
    · rw [if_neg hl, if_neg hl]
      have hnow : (d'.drop y).now = d.now := h.now
      rw [hnow]
  -- What is there now was there before.
  have hbefore : (d.node? y).isSome = true := by
    rcases h.artifacts y hy with hsame | ⟨hnone, _⟩
    · rwa [← hsame]
    · simp [hnone] at hsome
  have hgone : ∀ x ∈ a.places d, d'.node? x = none →
      ((d'.drop y).touchDir y.dropLast).node? x = none := by
    intro x _ hnone
    rw [hnode]
    split
    · rfl
    · simp [hnone]
  refine ⟨h.cwd, h.now, h.mask, fun l hl => ?_, fun x hx => ?_⟩
  · have hly : l ≠ y := fun heq => hl (heq.symm ▸ hy)
    rw [hnode, if_neg hly]
    by_cases hdir : l = y.dropLast
    · -- The directory of the artifact is touched, perhaps for the second time.
      rw [if_pos hdir]
      refine Or.inr ⟨y, hy, hbefore, by rw [hnode, if_pos rfl], hdir, ?_⟩
      rcases h.elsewhere l hl with hsame | ⟨_, _, _, _, _, htouched⟩
      · rw [hsame]
      · rw [htouched, Option.map_map]
        congr 1
        funext n
        cases n <;> rfl
    · rw [if_neg hdir]
      refine (h.elsewhere l hl).imp_right ?_
      rintro ⟨x, hx, hthere, hnone, hlx, htouched⟩
      exact ⟨x, hx, hthere, hgone x hx hnone, hlx, htouched⟩
  · by_cases hxy : x = y
    · subst hxy
      refine Or.inr ⟨by rw [hnode, if_pos rfl], fun hfilled => hempty (h.filled ha hx hfilled)⟩
    · have hdir : x ≠ y.dropLast := fun heq => ha.dropLast_notMem hy (heq ▸ hx)
      rw [hnode, if_neg hxy, if_neg hdir]
      exact h.artifacts x hx

end Pruned

/-! ### Removing both artifacts -/

/-- The outcome of removing the artifacts of a case. -/
structure Cleaned (a : Artifacts) (d d' : Disk) (failure : Option Failure) : Prop where
  pruned : Pruned a d d'
  /-- A full directory at the path of an artifact stays, with all it holds. -/
  whole : ∀ x ∈ a.places d, d.Filled x → ∀ l, x <+: l → d'.node? l = d.node? l
  /-- It makes the removal fail, unless it is the binary and its path led through the assembly. -/
  refused : ∀ p ∈ a.paths, ∀ x, d.spot? p = some x → d.Filled x →
    (∃ q ∈ a.paths, ∃ e, failure = some (staleFailure q e)) ∨
    (p = a.binary ∧ d'.holder p = .error .missing ∧
      ∃ y, d.spot? a.assembly = some y ∧ (d.node? y).isSome = true ∧ d'.node? y = none)

/-- The way to the binary is the way to the assembly, unless the path is refused by its form. -/
theorem Siblings.holder_binary (ha : a.Siblings) (hx : d.spot? a.assembly = some x) {l : Location}
    (hstart : d.start a.binary = .ok l) : ∃ c, d.holder a.binary = .ok (x.dropLast, some c) := by
  obtain ⟨front, hassembly, hbinary⟩ := ha
  obtain ⟨ps, last, hholder⟩ := Disk.holder_append d front
  obtain ⟨dir, c, hdir, _, rfl⟩ := Disk.spot?_eq_some hx
  rw [hassembly, hholder _ suffix_assembly] at hdir
  rw [hbinary] at hstart ⊢
  refine ⟨last ++ ".out", ?_⟩
  cases hfrom : d.start (front ++ ".s") with
  | error e => simp [hfrom] at hdir
  | ok l' =>
    -- Both paths start at the same location, and lead to the same directory from there.
    have hsame := Disk.start_append suffix_assembly suffix_binary hfrom
    rw [hstart] at hsame
    obtain rfl : l = l' := by
      split at hsame
      · simp at hsame
      · split at hsame
        · simp at hsame
        · exact Except.ok.inj hsame
    rw [hfrom] at hdir
    rw [hholder _ suffix_binary, hstart, List.dropLast_concat]
    dsimp only at hdir ⊢
    split at hdir
    · simp at hdir
    · simp at hdir
    · obtain ⟨rfl, _⟩ : _ = dir ∧ last ++ ".s" = c := by simpa using hdir
      rfl

/-- When the assembly has been removed, the binary is found where it was found before, or its
    path leads nowhere. -/
theorem Siblings.holder_removed (ha : a.Siblings) (hx : d.spot? a.assembly = some x) :
    ((d.drop x).touchDir x.dropLast).holder a.binary = d.holder a.binary ∨
    ((d.drop x).touchDir x.dropLast).holder a.binary = .error .missing := by
  have hdir : x.dropLast ≠ x := by
    intro heq
    have hmem : x ∈ a.places d := mem_places.mpr ⟨a.assembly, a.assembly_mem_paths, hx⟩
    exact ha.dropLast_notMem hmem (heq.symm ▸ hmem)
  have hwithout := Disk.without_removed d x x.dropLast hdir
  rcases Disk.holder_without hwithout a.binary with hsame | hmissing | ⟨⟨e, _, he⟩, _⟩
  · exact Or.inl hsame
  · exact Or.inr hmissing
  · -- A path that is refused is refused by its form, whatever is on the disk.
    cases hstart : d.start a.binary with
    | ok l =>
      obtain ⟨c, hholder⟩ := ha.holder_binary hx hstart
      rw [he] at hholder
      exact absurd hholder (by simp)
    | error e' =>
      left
      have hstart' : ((d.drop x).touchDir x.dropLast).start a.binary = .error e' := by
        rw [← hstart]
        exact Disk.start_congr hwithout.cwd _
      rw [Disk.holder, Disk.holder, hstart, hstart']

/-- What removing the artifacts of a case does, on any disk. -/
theorem cleaned_clean (ha : a.Siblings) (d : Disk) : Cleaned a d (a.clean d).1 (a.clean d).2 := by
  have hassembly := a.assembly_mem_paths
  have hbinary := a.binary_mem_paths
  unfold clean
  cases hs : discard d a.assembly with
  | error f =>
    obtain ⟨e, rfl⟩ := Course.eq_staleFailure_of_discard hs
    have hpruned := Pruned.refl a d
    exact ⟨hpruned, fun x hx hfilled l hl => hpruned.whole ha hx hfilled hl,
      fun _ _ _ _ _ => Or.inl ⟨a.assembly, hassembly, e, rfl⟩⟩
  | ok d₁ =>
    have hpruned₁ : Pruned a d d₁ := by
      rcases discard_cases hs with ⟨rfl, _⟩ | ⟨x, hx, hsome, hempty, rfl⟩
      · exact Pruned.refl a d₁
      · exact (Pruned.refl a d).removed ha (mem_places.mpr ⟨_, hassembly, hx⟩) hsome hempty
    dsimp only
    cases hb : discard d₁ a.binary with
    | error f =>
      obtain ⟨e, rfl⟩ := Course.eq_staleFailure_of_discard hb
      exact ⟨hpruned₁, fun x hx hfilled l hl => hpruned₁.whole ha hx hfilled hl,
        fun _ _ _ _ _ => Or.inl ⟨a.binary, hbinary, e, rfl⟩⟩
    | ok d₂ =>
      -- The binary is looked for at the location that it had before the assembly went.
      have hspot : ∀ y, d₁.spot? a.binary = some y → d.spot? a.binary = some y := by
        intro y hy
        rcases discard_cases hs with ⟨rfl, _⟩ | ⟨x, hx, _, _, rfl⟩
        · exact hy
        · rcases ha.holder_removed hx with hsame | hmissing
          · rw [← Disk.spot?_congr hsame, hy]
          · simp [Disk.spot?, hmissing] at hy
      have hpruned₂ : Pruned a d d₂ := by
        rcases discard_cases hb with ⟨rfl, _⟩ | ⟨y, hy, hsome, hempty, rfl⟩
        · exact hpruned₁
        · exact hpruned₁.removed ha (mem_places.mpr ⟨_, hbinary, hspot y hy⟩) hsome hempty
      refine ⟨hpruned₂, fun x hx hfilled l hl => hpruned₂.whole ha hx hfilled hl, ?_⟩
      intro p hp x hx hfilled
      right
      have hmem : x ∈ a.places d := mem_places.mpr ⟨p, hp, hx⟩
      rcases List.mem_cons.mp hp with rfl | hp
      · obtain ⟨e, he⟩ := discard_filled hx hfilled
        rw [hs] at he
        exact absurd he (by simp)
      · obtain rfl := List.mem_singleton.mp hp
        -- The directory is still there, so its path leads there no more.
        have hlost : d₁.spot? a.binary ≠ some x := by
          intro hx₁
          obtain ⟨e, he⟩ := discard_filled hx₁ (hpruned₁.filled ha hmem hfilled)
          rw [hb] at he
          exact absurd he (by simp)
        rcases discard_cases hs with ⟨rfl, _⟩ | ⟨y, hy, hsome, _, hd₁⟩
        · exact absurd hx hlost
        · have hmissing : d₁.holder a.binary = .error .missing := by
            have hremoved := ha.holder_removed hy
            rw [← hd₁] at hremoved
            refine hremoved.resolve_left fun hsame => hlost ?_
            rw [Disk.spot?_congr hsame, hx]
          obtain rfl : d₂ = d₁ := by
            rcases discard_cases hb with ⟨heq, _⟩ | ⟨z, hz, _⟩
            · exact heq
            · simp [Disk.spot?, hmissing] at hz
          refine ⟨rfl, hmissing, y, hy, hsome, ?_⟩
          rw [hd₁, Disk.node?_touchDir, Disk.node?_drop, if_pos rfl]
          simp

end Artifacts

/-! ### The cases of a selection -/

theorem Artifacts.nodup_paths {cases : List Case} (hnodup : (cases.map Case.name).Nodup)
    (hbase : ∀ case ∈ cases, Path.IsBase case.name) (q : Text) :
    (cases.flatMap fun case => (Artifacts.ofCase (Path.clean q) case).paths).Nodup := by
  -- The last component of a path tells which artifact of which case it is.
  have htold : ∀ case ∈ cases, ∀ p ∈ (Artifacts.ofCase (Path.clean q) case).paths,
      ∃ u ∈ [(".s" : Text), ".out"], Path.base p = Path.stem case.name ++ u := by
    intro case hcase p hp
    rcases mem_paths.mp hp with rfl | rfl
    · exact ⟨".s", by simp, Path.base_suffix (hbase case hcase) suffix_assembly q⟩
    · exact ⟨".out", by simp, Path.base_suffix (hbase case hcase) suffix_binary q⟩
  rw [List.nodup_flatMap]
  refine ⟨fun case hcase => ?_, ?_⟩
  · have hne : Path.stem case.name ++ (".s" : Text) ≠ Path.stem case.name ++ (".out" : Text) := by
      intro heq
      exact absurd (List.append_cancel_left heq) (by decide)
    rw [← Path.base_suffix (hbase case hcase) suffix_assembly q,
      ← Path.base_suffix (hbase case hcase) suffix_binary q] at hne
    simpa [Artifacts.paths, Artifacts.ofCase] using fun heq => hne (congrArg Path.base heq)
  · refine (List.pairwise_map.mp hnodup).imp_of_mem ?_
    intro case case' hcase hcase' hnames p hp hp'
    obtain ⟨u, hu, hlast⟩ := htold case hcase p hp
    obtain ⟨u', hu', hlast'⟩ := htold case' hcase' p hp'
    exact hnames (stem_append_inj (hbase case hcase) (hbase case' hcase') hu hu'
      (hlast.symm.trans hlast')).1

theorem LogStore.nodup_logPath {cases : List Case} (hnodup : (cases.map Case.name).Nodup)
    (hbase : ∀ case ∈ cases, Path.IsBase case.name) (s : LogStore) (run : Text) :
    (cases.map (s.logPath run)).Nodup := by
  obtain ⟨q, hq⟩ := s.exists_clean_runDir run
  refine List.pairwise_map.mpr ((List.pairwise_map.mp hnodup).imp_of_mem ?_)
  intro case case' hcase hcase' hnames heq
  have hlast := congrArg Path.base heq
  rw [LogStore.logPath, LogStore.logPath, hq, Path.base_suffix (hbase case hcase) suffix_log,
    Path.base_suffix (hbase case' hcase') suffix_log] at hlast
  exact hnames ((hbase case hcase).eq_of_stem (hbase case' hcase')
    (List.append_cancel_right hlast))

/-- The artifacts of a case are entries of the scratch directory, and its log is one of the
    directory of the run, whatever the source; removing the artifacts does nothing else; and
    the paths of selected cases are all different. -/
theorem Course.artifacts_confined {d₀ : Disk} {plan : CoursePlan} {logs : Option LogSource}
    {c : Course} (hplan : Course.ofPlan d₀ plan logs = .ok c) (store : LogStore) (run : Text)
    (d : Disk) :
    (∀ source,
      (∀ p ∈ (c.artifacts (Selection.caseOf d source)).paths, Path.Entry c.scratchDir p) ∧
      Path.Entry (store.runDir run) (store.logPath run (Selection.caseOf d source)) ∧
      ∀ e, (c.artifacts (Selection.caseOf d source)).Cleaned e
        ((c.artifacts (Selection.caseOf d source)).clean e).1
        ((c.artifacts (Selection.caseOf d source)).clean e).2) ∧
    ∀ dir suffix pattern cases, Selection.select d dir suffix pattern = .ok cases →
      (cases.flatMap fun case => (c.artifacts case).paths).Nodup ∧
      (cases.map (store.logPath run)).Nodup := by
  obtain ⟨q, hscratch⟩ := Course.exists_clean_scratchDir hplan
  obtain ⟨q', hrunDir⟩ := store.exists_clean_runDir run
  refine ⟨fun source => ⟨fun p hp => ?_, ?_, fun e => ?_⟩, ?_⟩
  · have hbase := Selection.isBase_caseOf d source
    rw [Course.artifacts, hscratch] at hp
    rw [hscratch]
    rcases Artifacts.mem_paths.mp hp with rfl | rfl
    · exact Path.entry_suffix hbase Artifacts.suffix_assembly q
    · exact Path.entry_suffix hbase Artifacts.suffix_binary q
  · rw [LogStore.logPath, hrunDir]
    exact Path.entry_suffix (Selection.isBase_caseOf d source) LogStore.suffix_log q'
  · exact Artifacts.cleaned_clean (Artifacts.siblings_ofCase _ _) e
  · intro dir suffix pattern cases hselect
    obtain ⟨hnodup, hbase⟩ := Selection.select_names hselect
    refine ⟨?_, LogStore.nodup_logPath hnodup hbase store run⟩
    have hpaths := Artifacts.nodup_paths hnodup hbase q
    rw [← hscratch] at hpaths
    exact hpaths

namespace Sample

/-- A scratch directory that is given relative to the work directory. -/
def outside : CoursePlan where
  workDir := "/w"
  scratchDir := "..//s/"
  launcher := "l"

/-- The root as a source, and a selection with a link in it. -/
theorem artifacts_confined_linked :
    Course.ofPlan Selection.Sample.linked outside none = .ok (Course.ofPlanAt outside "/w" none) ∧
    (Selection.caseOf Selection.Sample.linked "//").name = "/" ∧
    Path.Entry "/s" "/s/.out" ∧ Path.Entry "/g/testrun-r" "/g/testrun-r/.log" ∧
    Selection.select Selection.Sample.linked "/t" [] [] =
      .ok [⟨"/t/a.prog", "c.prog"⟩, ⟨"/t/b.prog", "b.prog"⟩] ∧
    (["/s/c.prog.s", "/s/c.prog.out", "/s/b.prog.s", "/s/b.prog.out"] : List Text).Nodup := by
  have hplan : Course.ofPlan Selection.Sample.linked outside none =
      .ok (Course.ofPlanAt outside "/w" none) := rfl
  have hscratch : (Course.ofPlanAt outside "/w" none).scratchDir = "/s" := by decide +kernel
  have hconfined := Course.artifacts_confined hplan ⟨"/g"⟩ "r" Selection.Sample.linked
  obtain ⟨hpaths, hlog, _⟩ := hconfined.1 "//"
  refine ⟨hplan, by decide +kernel, ?_, ?_, Selection.Sample.select_linked, ?_⟩
  · rw [← hscratch]
    exact hpaths _ (by decide +kernel)
  · have hrunDir : LogStore.runDir ⟨"/g"⟩ "r" = "/g/testrun-r" := by decide +kernel
    have hlogPath : LogStore.logPath ⟨"/g"⟩ "r" (Selection.caseOf Selection.Sample.linked "//") =
        "/g/testrun-r/.log" := by decide +kernel
    rwa [hrunDir, hlogPath] at hlog
  · have hnodup := (hconfined.2 "/t" [] [] _ Selection.Sample.select_linked).1
    have hlist : ([⟨"/t/a.prog", "c.prog"⟩, ⟨"/t/b.prog", "b.prog"⟩] : List Case).flatMap
        (fun case => ((Course.ofPlanAt outside "/w" none).artifacts case).paths) =
        ["/s/c.prog.s", "/s/c.prog.out", "/s/b.prog.s", "/s/b.prog.out"] := by decide +kernel
    rwa [hlist] at hnodup

/-- The scratch directory `/s` is reached through the assembly, and the binary is a directory
    that holds something. -/
def hidden : Disk :=
  (winding.put [("d" : Text), ("a.out" : Text)] (.dir 0o755 ⟨0, 0⟩)).put
    [("d" : Text), ("a.out" : Text), ("x" : Text)] stale

/-- A binary that is a full directory is passed over if its path leads through the assembly;
    and a removal changes the time of the scratch directory, which is no artifact. -/
theorem removal_can_overlook :
    (hidden.spot? (Artifacts.ofCase "/s" case).binary = some [("d" : Text), ("a.out" : Text)] ∧
      hidden.Filled [("d" : Text), ("a.out" : Text)] ∧
      ((Artifacts.ofCase "/s" case).clean hidden).2 = none) ∧
    [("t" : Text)] ∉ (Artifacts.ofCase "/t" case).places littered ∧
    (littered.node? [("t" : Text)]).map Node.modified = some ⟨0, 0⟩ ∧
    (((Artifacts.ofCase "/t" case).clean littered).1.node? [("t" : Text)]).map Node.modified =
      some ⟨1, 0⟩ := by
  refine ⟨⟨by decide +kernel, ⟨⟨0o755, ⟨0, 0⟩, by decide +kernel⟩, "x", by decide +kernel⟩, ?_⟩,
    by decide +kernel, by decide +kernel, by decide +kernel⟩
  have hnone : ((Artifacts.ofCase "/s" case).clean hidden).2.isNone = true := by decide +kernel
  exact Option.isNone_iff_eq_none.mp hnone

end Sample

end Gauntlet
