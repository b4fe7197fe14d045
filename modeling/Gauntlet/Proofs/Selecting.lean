import Gauntlet.Proofs.Resolving
import Gauntlet.Proofs.Verdict

/-! # Which cases are selected

  A selection takes the sources of a directory, in byte order, and gives each the name of the
  file to which it leads. It succeeds exactly if these names are different, and else it refuses
  the first source whose name has come before, together with the one that had it.

  What is selected is said without the way in which it is computed: a source is an entry of the
  directory (`IsSource`), and its name is the last component of the location to which its path
  leads (`properName`), since resolving a name and following it agree (`caseOf_eq`).
-/

namespace Gauntlet

namespace Text

theorem includes_iff {t needle : Text} : t.includes needle = true ↔ needle <:+: t := by
  induction t with
  | nil => simp [includes]
  | cons b t ih =>
    rw [includes, Bool.or_eq_true, ih, startsWith, List.isPrefixOf_iff_prefix, List.infix_cons_iff]

theorem pairwise_mergeSort (ts : List Text) :
    (ts.mergeSort le).Pairwise fun a b => le a b = true := by
  refine List.pairwise_mergeSort ?_ ?_ ts
  · intro a b c hab hbc
    exact decide_eq_true (List.le_trans (of_decide_eq_true hab) (of_decide_eq_true hbc))
  · intro a b
    rcases List.le_total a b with h | h
    · simp [le, h]
    · simp [le, h]

end Text

/-! ### Joined names -/

namespace Path

/-- A name joined to a directory is a cleaned path that ends in it. -/
theorem join_ordinary {c : Text} (hc : Ordinary c) (dir : Text) :
    ∃ t, join [dir, c] = clean (t ++ c) ∧ (t = [] ∨ ∃ t', t = t' ++ [slash]) := by
  by_cases hdir : dir = []
  · refine ⟨[], ?_, Or.inl rfl⟩
    simp [join, hdir, hc.ne_nil, Text.intercalate]
  · refine ⟨dir ++ [slash], ?_, Or.inr ⟨dir, rfl⟩⟩
    simp [join, hdir, Text.intercalate]

theorem base_join {c : Text} (hc : Ordinary c) (dir : Text) : base (join [dir, c]) = c := by
  obtain ⟨t, ht, hend⟩ := join_ordinary hc dir
  rw [ht, base_clean hc hend]

theorem telling_join {c : Text} (hc : Ordinary c) (dir : Text) :
    Disk.Telling (Disk.steps (join [dir, c])) := by
  obtain ⟨t, ht, hend⟩ := join_ordinary hc dir
  obtain ⟨ps, hps⟩ := pieces_clean hc hend
  refine ⟨c, ?_, hc.ne_here, hc.ne_up⟩
  have hmem : c ∈ (pieces (join [dir, c])).filter (· ≠ []) := by
    rw [ht, hps]
    simp
  rcases Disk.Matches.steps_cases (join [dir, c]) with hsteps | ⟨hsteps, _⟩
  · rw [hsteps]
    exact List.mem_append_left _ hmem
  · rw [hsteps]
    exact hmem

end Path

/-! ### Entries of a directory -/

namespace Disk

/-- What is below a directory, and one component longer, is in it. -/
theorem child_of_mem_tree {d : Disk} {l x : Location} {n : Node} {c : Text}
    (hmem : (x, n) ∈ d.tree l)
    (hlast : (if x.length = l.length + 1 then x.getLast? else none) = some c) :
    x = l ++ [c] ∧ d.node? (l ++ [c]) = some n := by
  obtain ⟨hpair, hbelow⟩ := List.mem_filter.mp hmem
  have hn : d.node? x = some n := (SortedMap.mem_pairs_iff d.nodes x n).mp hpair
  by_cases hlength : x.length = l.length + 1
  · rw [if_pos hlength] at hlast
    obtain ⟨front, rfl⟩ := List.getLast?_eq_some_iff.mp hlast
    have hprefix : l <+: front ++ [c] := by
      simpa using (Bool.and_eq_true_iff.mp hbelow).1
    have hfront : l = front := by
      rcases List.prefix_concat_iff.mp hprefix with heq | hprefix
      · simp [heq] at hlength
      · exact hprefix.eq_of_length (by simpa using hlength.symm)
    rw [hfront]
    exact ⟨rfl, hn⟩
  · rw [if_neg hlength] at hlast
    simp at hlast

theorem mem_names_iff {d : Disk} {l : Location} {c : Text} :
    c ∈ d.names l ↔ (d.node? (l ++ [c])).isSome = true := by
  unfold names
  rw [List.mem_filterMap]
  constructor
  · rintro ⟨⟨x, n⟩, hmem, hlast⟩
    rw [(child_of_mem_tree hmem hlast).2]
    rfl
  · intro hsome
    obtain ⟨n, hn⟩ := Option.isSome_iff_exists.mp hsome
    refine ⟨(l ++ [c], n), List.mem_filter.mpr ⟨(SortedMap.mem_pairs_iff d.nodes _ n).mpr hn, ?_⟩, ?_⟩
    · simp [below]
    · simp

theorem nodup_names (d : Disk) (l : Location) : (d.names l).Nodup := by
  have hkeys : (d.tree l).Pairwise fun p p' => p.1 ≠ p'.1 := by
    refine (d.nodes.sorted.imp ?_).filter _
    intro p p' hlt heq
    rw [heq] at hlt
    exact absurd hlt (List.lt_irrefl _)
  unfold names
  rw [List.Nodup, List.pairwise_filterMap]
  refine hkeys.imp_of_mem ?_
  -- Names in one directory are told apart by their locations.
  rintro ⟨x, n⟩ ⟨x', n'⟩ hmem hmem' hne c hc c' hc' rfl
  exact hne ((child_of_mem_tree hmem hc).1.trans (child_of_mem_tree hmem' hc').1.symm)

/-- A path leads to a directory that may be listed. -/
def Lists (d : Disk) (dir : Text) (l : Location) : Prop :=
  ∃ m t, d.find true dir = .ok (l, .dir m t) ∧ (Node.dir m t).readable = true

theorem readDir_of_lists {d : Disk} {dir : Text} {l : Location} (h : d.Lists dir l) :
    d.readDir dir = .ok (d.names l) := by
  obtain ⟨m, t, hfind, hreadable⟩ := h
  simp [readDir, hfind, hreadable, Node.isDir]

theorem readDir_of_not_lists {d : Disk} {dir : Text} (h : ∀ l, ¬ d.Lists dir l) :
    ∃ e, d.readDir dir = .error e := by
  unfold readDir
  cases hfind : d.find true dir with
  | error e => exact ⟨_, rfl⟩
  | ok found =>
    obtain ⟨l, n⟩ := found
    cases n with
    | dir m t =>
      have hreadable : (Node.dir m t).readable = false := by
        by_contra hreadable
        exact h l ⟨m, t, hfind, by simpa using hreadable⟩
      exact ⟨⟨"open", dir, .denied⟩, by simp [hreadable, Node.isDir]⟩
    | file _ _ _ => exact ⟨⟨"open", dir, .notDirectory⟩, by simp [Node.isDir]⟩
    | link _ => exact ⟨⟨"open", dir, .notDirectory⟩, by simp [Node.isDir]⟩

end Disk

namespace Selection

/-! ### Sources -/

/-- The ending of sources. -/
def ending (suffix : Text) : Text := if suffix = [] then defaultSuffix else suffix

/-- A path leads to a regular file. -/
def LeadsToFile (d : Disk) (p : Text) : Prop :=
  ∃ x n, d.find true p = .ok (x, n) ∧ n.isFile = true ∧ n.isDevice = false

/-- A path joins to a directory one of its entries, which has the ending, leads to a regular
    file, and whose path contains the pattern. -/
def IsSource (d : Disk) (l : Location) (dir suffix pattern p : Text) : Prop :=
  ∃ name, (d.node? (l ++ [name])).isSome = true ∧ ending suffix <:+ name ∧
    p = Path.join [dir, name] ∧ LeadsToFile d p ∧ pattern <:+: p

/-- The name of a source is the last component of the location to which it leads. If it cannot
    be resolved, the source keeps its own last component. -/
def properName (d : Disk) (p : Text) : Text :=
  match d.find true p with
  | .ok (x, _) => if d.Resolvable p then x.getLast?.getD [] else Path.base p
  | .error _ => Path.base p

section Sources

variable {d : Disk} {l : Location} {dir suffix pattern p : Text}

theorem isRegular_iff : isRegular d p = true ↔ LeadsToFile d p := by
  unfold isRegular LeadsToFile
  cases d.find true p with
  | error e => simp
  | ok found => simp [Prod.ext_iff]

/-- The sources of a directory that match a pattern, in byte order. -/
def sources (d : Disk) (l : Location) (dir suffix pattern : Text) : List Text :=
  filter (((((d.names l).filter (·.endsWith (ending suffix))).map
    fun n => Path.join [dir, n]).filter (isRegular d)).mergeSort Text.le) pattern

theorem select_eq (h : d.Lists dir l) (suffix pattern : Text) :
    select d dir suffix pattern = distinctAfter d [] (sources d l dir suffix pattern) := by
  unfold select discover
  simp only [Disk.readDir_of_lists h]
  rfl

theorem mem_sources : p ∈ sources d l dir suffix pattern ↔ IsSource d l dir suffix pattern p := by
  unfold sources filter IsSource
  rw [List.mem_filter, (List.mergeSort_perm _ _).mem_iff, List.mem_filter, List.mem_map]
  constructor
  · rintro ⟨⟨⟨name, hname, rfl⟩, hregular⟩, hpattern⟩
    obtain ⟨hmem, hending⟩ := List.mem_filter.mp hname
    exact ⟨name, Disk.mem_names_iff.mp hmem, List.isSuffixOf_iff_suffix.mp hending, rfl,
      isRegular_iff.mp hregular, Text.includes_iff.mp hpattern⟩
  · rintro ⟨name, hmem, hending, rfl, hregular, hpattern⟩
    have hname : name ∈ (d.names l).filter (·.endsWith (ending suffix)) :=
      List.mem_filter.mpr ⟨Disk.mem_names_iff.mpr hmem, List.isSuffixOf_iff_suffix.mpr hending⟩
    exact ⟨⟨⟨name, hname, rfl⟩, isRegular_iff.mpr hregular⟩, Text.includes_iff.mpr hpattern⟩

/-- The sources come in strictly increasing order, since different names make different
    paths. -/
theorem sorted_sources (hnamed : d.Named) : (sources d l dir suffix pattern).Pairwise (· < ·) := by
  have hordinary : ∀ name ∈ (d.names l).filter (·.endsWith (ending suffix)),
      Path.Ordinary name := by
    intro name hname
    have hsome := Disk.mem_names_iff.mp (List.mem_filter.mp hname).1
    obtain ⟨n, hn⟩ := Option.isSome_iff_exists.mp hsome
    exact (hnamed l name n hn).1
  have hnames : ((d.names l).filter (·.endsWith (ending suffix))).Nodup :=
    (Disk.nodup_names d l).filter _
  have hpaths : (((d.names l).filter (·.endsWith (ending suffix))).map
      fun n => Path.join [dir, n]).Nodup := by
    refine hnames.map_on ?_
    intro a ha b hb heq
    rw [← Path.base_join (hordinary a ha) dir, heq, Path.base_join (hordinary b hb) dir]
  have hnodup := (List.mergeSort_perm _ Text.le).nodup_iff.mpr (hpaths.filter (isRegular d))
  have hle := Text.pairwise_mergeSort ((((d.names l).filter (·.endsWith (ending suffix))).map
    fun n => Path.join [dir, n]).filter (isRegular d))
  unfold sources filter
  refine List.Pairwise.filter _ ((hle.and hnodup).imp ?_)
  rintro a b ⟨hab, hne⟩
  rcases List.le_iff_lt_or_eq.mp (of_decide_eq_true hab) with hlt | heq
  · exact hlt
  · exact absurd heq hne

/-- The name of a case is the proper one. -/
theorem caseOf_eq (hsound : d.Sound) (hnamed : d.Named)
    (hp : IsSource d l dir suffix pattern p) : caseOf d p = ⟨p, properName d p⟩ := by
  obtain ⟨name, hname, _, rfl, ⟨x, n, hfind, hfile, _⟩, _⟩ := hp
  obtain ⟨n', hn'⟩ := Option.isSome_iff_exists.mp hname
  have hordinary := (hnamed l name n' hn').1
  have hdir : n.isDir = false := by
    cases n with
    | dir _ _ => simp [Node.isFile] at hfile
    | file _ _ _ => rfl
    | link _ => rfl
  unfold caseOf properName
  rw [hfind]
  dsimp only
  by_cases hresolvable : d.Resolvable (Path.join [dir, name])
  · obtain ⟨r, hr, hlast⟩ := Disk.resolved?_of_find hsound hnamed
      (Path.telling_join hordinary dir) hfind hdir hresolvable
    rw [if_pos hresolvable, hr, hlast]
    rfl
  · rw [if_neg hresolvable, Disk.resolved?_of_long hresolvable]
    rfl

end Sources

/-! ### Different names -/

section Distinct

variable {d : Disk} {seen : List Case} {before after : List Text} {p q : Text}

/-- The case of a source with its proper name. -/
def properCase (d : Disk) (p : Text) : Case := ⟨p, properName d p⟩

/-- As long as names are different, their cases are seen. -/
theorem distinctAfter_append (hbefore : ∀ p ∈ before, caseOf d p = properCase d p)
    (hnodup : (before.map (properName d)).Nodup)
    (hseen : ∀ p ∈ before, ∀ s ∈ seen, s.name ≠ properName d p) (after : List Text) :
    distinctAfter d seen (before ++ after) =
      distinctAfter d ((before.map (properCase d)).reverse ++ seen) after := by
  induction before generalizing seen with
  | nil => rfl
  | cons p before ih =>
    obtain ⟨hp, hbefore⟩ := List.forall_mem_cons.mp hbefore
    obtain ⟨hfirst, hrest⟩ := List.nodup_cons.mp hnodup
    obtain ⟨hseen, hlater⟩ := List.forall_mem_cons.mp hseen
    have hnone : seen.find? (fun s => s.name = (caseOf d p).name) = none := by
      rw [List.find?_eq_none, hp]
      intro s hs hsame
      exact hseen s hs (of_decide_eq_true hsame)
    have hnext : ∀ p' ∈ before, ∀ s ∈ caseOf d p :: seen, s.name ≠ properName d p' := by
      intro p' hp' s hs
      rcases List.mem_cons.mp hs with rfl | hs
      · rw [hp]
        exact fun heq => hfirst (List.mem_map.mpr ⟨p', hp', heq.symm⟩)
      · exact hlater p' hp' s hs
    rw [List.cons_append, distinctAfter]
    simp only [hnone]
    rw [ih hbefore hrest hnext, hp]
    simp

theorem distinctAfter_ok {ps : List Text} (hps : ∀ p ∈ ps, caseOf d p = properCase d p)
    (hnodup : (ps.map (properName d)).Nodup) :
    distinctAfter d [] ps = .ok (ps.map (properCase d)) := by
  have hseen : ∀ p ∈ ps, ∀ s ∈ ([] : List Case), s.name ≠ properName d p := by simp
  have happend := distinctAfter_append hps hnodup hseen []
  rw [List.append_nil] at happend
  rw [happend]
  simp [distinctAfter]

/-- The first source whose name has come before is refused, with the one that had it. -/
theorem distinctAfter_clash (hps : ∀ p' ∈ before ++ p :: after, caseOf d p' = properCase d p')
    (hnodup : (before.map (properName d)).Nodup) (hq : q ∈ before)
    (hname : properName d q = properName d p) :
    distinctAfter d [] (before ++ p :: after) = .error (sameName q p (properName d p)) := by
  have hbefore : ∀ p' ∈ before, caseOf d p' = properCase d p' :=
    fun p' hp' => hps p' (List.mem_append_left _ hp')
  have hp : caseOf d p = properCase d p := hps p (by simp)
  -- Only one of those before has this name.
  obtain ⟨s, hs⟩ : ∃ s, (before.map (properCase d)).reverse.find?
      (fun s => s.name = (properCase d p).name) = some s := by
    cases hfind : (before.map (properCase d)).reverse.find?
        (fun s => s.name = (properCase d p).name) with
    | some s => exact ⟨s, rfl⟩
    | none =>
      have hnone := List.find?_eq_none.mp hfind (properCase d q)
        (List.mem_reverse.mpr (List.mem_map.mpr ⟨q, hq, rfl⟩))
      simp [properCase, hname] at hnone
  have hsame := List.find?_some hs
  have hsname : s.name = properName d p := of_decide_eq_true hsame
  obtain ⟨q', hq', rfl⟩ := List.mem_map.mp (List.mem_reverse.mp (List.mem_of_find?_eq_some hs))
  have heq : q' = q := List.inj_on_of_nodup_map hnodup hq' hq (hsname.trans hname.symm)
  rw [distinctAfter_append hbefore hnodup (by simp), List.append_nil, distinctAfter]
  simp only [hp, hs]
  rw [heq]
  rfl

/-- Where names are not different, there is a first one that has come before. -/
theorem exists_clash (f : Text → Text) {ps : List Text} (h : ¬ (ps.map f).Nodup) :
    ∃ before p after q, ps = before ++ p :: after ∧ (before.map f).Nodup ∧ q ∈ before ∧
      f q = f p := by
  induction ps using List.reverseRecOn with
  | nil => simp at h
  | append_singleton ps p ih =>
    by_cases hps : (ps.map f).Nodup
    · refine ⟨ps, p, [], ?_⟩
      have hmem : f p ∈ ps.map f := by
        by_contra hmem
        refine h ?_
        rw [List.map_append, List.map_singleton, List.nodup_append]
        refine ⟨hps, by simp, ?_⟩
        intro a ha b hb heq
        rw [List.mem_singleton.mp hb] at heq
        exact hmem (heq ▸ ha)
      obtain ⟨q, hq, hfq⟩ := List.mem_map.mp hmem
      exact ⟨q, rfl, hps, hq, hfq⟩
    · obtain ⟨before, p', after, q, rfl, hrest⟩ := ih hps
      exact ⟨before, p', after ++ [p], q, by simp, hrest⟩

end Distinct

/-! ### Selections -/

section Outcomes

variable {d : Disk} {l : Location} {dir suffix pattern : Text}

/-- A selection succeeds if the sources have different names. -/
theorem select_ok_iff (hsound : d.Sound) (hnamed : d.Named) (hl : d.Lists dir l)
    (cases : List Case) :
    select d dir suffix pattern = .ok cases ↔
      ((sources d l dir suffix pattern).map (properName d)).Nodup ∧
        cases = (sources d l dir suffix pattern).map (properCase d) := by
  have hps : ∀ p ∈ sources d l dir suffix pattern, caseOf d p = properCase d p :=
    fun p hp => caseOf_eq hsound hnamed (mem_sources.mp hp)
  rw [select_eq hl]
  by_cases hnodup : ((sources d l dir suffix pattern).map (properName d)).Nodup
  · rw [distinctAfter_ok hps hnodup]
    simp [hnodup, eq_comm]
  · obtain ⟨before, p, after, q, hsplit, hbefore, hq, hname⟩ := exists_clash _ hnodup
    rw [hsplit] at hps
    rw [hsplit, distinctAfter_clash hps hbefore hq hname, ← hsplit]
    simp [hnodup]

/-- A selection fails at the first source whose name has come before. -/
theorem select_error_iff (hsound : d.Sound) (hnamed : d.Named) (hl : d.Lists dir l) (f : Failure) :
    select d dir suffix pattern = .error f ↔
      ∃ before p after q, sources d l dir suffix pattern = before ++ p :: after ∧
        (before.map (properName d)).Nodup ∧ q ∈ before ∧ properName d q = properName d p ∧
        f = sameName q p (properName d p) := by
  have hps : ∀ p ∈ sources d l dir suffix pattern, caseOf d p = properCase d p :=
    fun p hp => caseOf_eq hsound hnamed (mem_sources.mp hp)
  rw [select_eq hl]
  constructor
  · intro hf
    have hnodup : ¬ ((sources d l dir suffix pattern).map (properName d)).Nodup := by
      intro hnodup
      rw [distinctAfter_ok hps hnodup] at hf
      simp at hf
    obtain ⟨before, p, after, q, hsplit, hbefore, hq, hname⟩ := exists_clash _ hnodup
    refine ⟨before, p, after, q, hsplit, hbefore, hq, hname, ?_⟩
    rw [hsplit] at hps
    rw [hsplit, distinctAfter_clash hps hbefore hq hname] at hf
    exact (Except.error.inj hf).symm
  · rintro ⟨before, p, after, q, hsplit, hbefore, hq, hname, rfl⟩
    rw [hsplit] at hps
    rw [hsplit, distinctAfter_clash hps hbefore hq hname]

/-- Where two sources can be resolved, the location makes the name. -/
theorem properName_congr {p q : Text} {x : Location} {n n' : Node} (hp : d.Resolvable p)
    (hq : d.Resolvable q) (hfind : d.find true p = .ok (x, n)) (hfind' : d.find true q = .ok (x, n')) :
    properName d p = properName d q := by
  simp [properName, hfind, hfind', hp, hq]

end Outcomes

/-- A selection is exact. A directory that is missing or may not be listed is an error. Else
    the sources are taken in order, each with its proper name. If the names are different, these
    are the cases, and no two of them that can be resolved lead to one file. If not, the first
    source whose name has come before is refused, together with the one that had it. -/
theorem select_exact {d : Disk} (hsound : d.Sound) (hnamed : d.Named) (dir suffix pattern : Text) :
    ((∀ l, ¬ d.Lists dir l) → ∃ e, select d dir suffix pattern =
      .error (.wrap ("failed to read tests directory " ++ dir) (some e))) ∧
    ∀ l, d.Lists dir l → ∃ ps : List Text, ps.Pairwise (· < ·) ∧
      (∀ p, p ∈ ps ↔ IsSource d l dir suffix pattern p) ∧
      (∀ cases, select d dir suffix pattern = .ok cases ↔
        (ps.map (properName d)).Nodup ∧ cases = ps.map fun p => ⟨p, properName d p⟩) ∧
      (∀ f, select d dir suffix pattern = .error f ↔
        ∃ before p after q, ps = before ++ p :: after ∧ (before.map (properName d)).Nodup ∧
          q ∈ before ∧ properName d q = properName d p ∧
          f = sameName q p (properName d p)) ∧
      ∀ cases, select d dir suffix pattern = .ok cases → ∀ a ∈ cases, ∀ b ∈ cases,
        d.Resolvable a.source → d.Resolvable b.source →
        ∀ x n n', d.find true a.source = .ok (x, n) → d.find true b.source = .ok (x, n') →
          a = b := by
  refine ⟨fun hnone => ?_, fun l hl => ?_⟩
  · obtain ⟨e, he⟩ := Disk.readDir_of_not_lists hnone
    refine ⟨e.failure, ?_⟩
    simp only [select, discover, he]
  · refine ⟨sources d l dir suffix pattern, sorted_sources hnamed, fun p => mem_sources,
      select_ok_iff hsound hnamed hl, select_error_iff hsound hnamed hl, ?_⟩
    intro cases hcases a ha b hb hresolvable hresolvable' x n n' hfind hfind'
    obtain ⟨hnodup, rfl⟩ := (select_ok_iff hsound hnamed hl cases).mp hcases
    obtain ⟨p, hp, rfl⟩ := List.mem_map.mp ha
    obtain ⟨q, hq, rfl⟩ := List.mem_map.mp hb
    have hname := properName_congr hresolvable hresolvable' hfind hfind'
    rw [List.inj_on_of_nodup_map hnodup hp hq hname]

/-! ### Samples -/

namespace Sample

/-- A directory `/t` with a file and a link to a file elsewhere. -/
def linked : Disk where
  nodes := (((((SortedMap.empty.insert [] (.dir 0o755 ⟨0, 0⟩)).insert [("t" : Text)]
    (.dir 0o755 ⟨0, 0⟩)).insert [("x" : Text)] (.dir 0o755 ⟨0, 0⟩)).insert
    [("x" : Text), ("c.prog" : Text)] (.file [] 0o644 ⟨0, 0⟩)).insert
    [("t" : Text), ("a.prog" : Text)] (.link "../x/c.prog")).insert
    [("t" : Text), ("b.prog" : Text)] (.file [] 0o644 ⟨0, 0⟩)
  cwd := none
  now := ⟨0, 0⟩

theorem select_linked : select linked "/t" [] [] =
    .ok [⟨"/t/a.prog", "c.prog"⟩, ⟨"/t/b.prog", "b.prog"⟩] := by
  have hnames : linked.readDir "/t" = .ok [("a.prog" : Text), ("b.prog" : Text)] := by rfl
  rw [select_of_sorted hnames (by decide +kernel)]
  rfl

theorem select_exact_linked : linked.Sound ∧ linked.Named ∧ linked.Lists "/t" [("t" : Text)] ∧
    ∃ ps : List Text, ps.Pairwise (· < ·) ∧
      (∀ p, p ∈ ps ↔ IsSource linked [("t" : Text)] "/t" [] [] p) ∧
      (ps.map (properName linked)).Nodup ∧
      select linked "/t" [] [] = .ok (ps.map fun p => ⟨p, properName linked p⟩) := by
  have hsound : linked.Sound := by decide +kernel
  have hnamed : linked.Named := by decide +kernel
  have hlists : linked.Lists "/t" [("t" : Text)] := ⟨0o755, ⟨0, 0⟩, by rfl, by decide⟩
  obtain ⟨ps, hsorted, hmem, hok, _, _⟩ :=
    (select_exact hsound hnamed "/t" [] []).2 [("t" : Text)] hlists
  obtain ⟨hnodup, hcases⟩ := (hok _).mp select_linked
  exact ⟨hsound, hnamed, hlists, ps, hsorted, hmem, hnodup, (hok _).mpr ⟨hnodup, rfl⟩⟩

/-- A directory `/t` with a link to a file elsewhere, by way of another link. The way has so many
    steps up that its name becomes too long, while the targets of the links are not. -/
def winding : Disk where
  nodes := (((((SortedMap.empty.insert [] (.dir 0o755 ⟨0, 0⟩)).insert [("t" : Text)]
    (.dir 0o755 ⟨0, 0⟩)).insert [("src" : Text)] (.dir 0o755 ⟨0, 0⟩)).insert
    [("src" : Text), ("a.prog" : Text)] (.file [] 0o644 ⟨0, 0⟩)).insert
    [("t" : Text), ("b.prog" : Text)] (.link "../../../l")).insert
    [("l" : Text)] (.link ((List.replicate 1361 ("../" : Text)).flatten ++ "src/a.prog"))
  cwd := some []
  now := ⟨0, 0⟩

theorem find_winding : (winding.find true "t/b.prog").toOption =
    some ([("src" : Text), ("a.prog" : Text)], .file [] 0o644 ⟨0, 0⟩) := by
  decide +kernel

theorem caseOf_winding : caseOf winding "t/b.prog" = ⟨"t/b.prog", "b.prog"⟩ := by
  decide +kernel

theorem isRegular_winding : isRegular winding "t/b.prog" = true :=
  isRegular_iff.mpr ⟨_, _, toOption_eq_some_iff.mp find_winding, rfl, by decide⟩

/-- A case need not have the name of the file to which its source leads. -/
theorem select_can_misname :
    (winding.find true "t/b.prog").toOption =
      some ([("src" : Text), ("a.prog" : Text)], .file [] 0o644 ⟨0, 0⟩) ∧
    select winding "t" [] [] = .ok [⟨"t/b.prog", "b.prog"⟩] := by
  refine ⟨find_winding, ?_⟩
  have hnames : winding.readDir "t" = .ok [("b.prog" : Text)] := by rfl
  have hpaths : ((([("b.prog" : Text)].filter
      (·.endsWith (if ([] : Text) = [] then defaultSuffix else []))).map
      fun n => Path.join ["t", n]).filter (isRegular winding)) = [("t/b.prog" : Text)] := by
    have hjoined : ([("b.prog" : Text)].filter
        (·.endsWith (if ([] : Text) = [] then defaultSuffix else []))).map
        (fun n => Path.join ["t", n]) = [("t/b.prog" : Text)] := by decide +kernel
    rw [hjoined, List.filter_cons_of_pos isRegular_winding, List.filter_nil]
  rw [select_of_sorted hnames (by rw [hpaths]; exact List.pairwise_singleton _ _), hpaths]
  simp [filter, Text.includes_iff, distinctAfter, caseOf_winding]

end Sample

end Selection

end Gauntlet
