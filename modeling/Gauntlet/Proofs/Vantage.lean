import Gauntlet.Host
import Gauntlet.Proofs.Confinement

/-! # What names mean to the commands of a course

  A course removes and looks for artifacts from its own working directory, and hands the same
  names to commands that run in the work directory. An absolute name means the same to both
  (`Disk.agrees_of_absolute`). A relative name is taken from where the process is, so that it
  means the same only if the work directory is the working directory; otherwise, if no links
  are in the way, it never does (`Disk.apart_of_relative`).

  The names of a course are put below the work directory. With an absolute work directory they
  are absolute, and a command starts the file that its program names in the work directory
  (`Disk.find_below`). With a relative one they are relative, the command puts the work
  directory in front of them once more, and they are not what the course means
  (`Course.names_agree`).
-/

namespace Gauntlet

/-! ### Names -/

theorem Text.suffix_intercalate (sep : Text) (ps qs : List Text) :
    intercalate sep qs <:+ intercalate sep (ps ++ qs) := by
  induction ps with
  | nil => exact List.suffix_rfl
  | cons p ps ih =>
    refine ih.trans ?_
    cases h : ps ++ qs with
    | nil => exact List.nil_suffix
    | cons r rs =>
      rw [List.cons_append, h]
      exact List.suffix_append _ _

namespace Path

theorem isAbsolute_join {dir : Text} (hdir : dir ≠ []) (p : Text) :
    isAbsolute (join [dir, p]) = isAbsolute dir := by
  rw [join_eq_clean hdir, isAbsolute_clean, isAbsolute_append hdir]

theorem isAbsolute_anchor {dir : Text} (hdir : dir ≠ []) (p : Text) :
    isAbsolute (anchor dir p) = true ↔ isAbsolute p = true ∨ isAbsolute dir = true := by
  unfold anchor
  split
  · rename_i hp
    simp [isAbsolute_clean, hp]
  · rename_i hp
    simp [isAbsolute_join hdir, hp]

theorem slash_mem_of_absolute {p : Text} (h : isAbsolute p = true) : slash ∈ p := by
  have hhead : p.head? = some slash := by simpa [isAbsolute] using h
  exact List.mem_of_mem_head? hhead

theorem eq_relative {p : Text} (hp : isAbsolute p = false) (hclean : clean p = p) :
    p = relative (components p) := by
  rw [clean, hp, if_neg Bool.false_ne_true] at hclean
  exact hclean.symm

theorem here_notMem_reduce (rooted : Bool) {kept cs : List Text} (hkept : here ∉ kept) :
    here ∉ reduce rooted kept cs := by
  fun_induction reduce rooted kept cs with
  | case1 kept => simpa using hkept
  | case2 kept c cs hc ih => exact ih hkept
  | case3 cs hc ih =>
    refine ih ?_
    split
    · simp
    · decide
  | case4 cs ks hc ih => exact ih (List.not_mem_cons_of_ne_of_not_mem (by decide) hkept)
  | case5 cs k ks hk hc ih => exact ih (List.not_mem_of_not_mem_cons hkept)
  | case6 kept c cs hc hup ih =>
    refine ih (List.not_mem_cons_of_ne_of_not_mem ?_ hkept)
    exact fun heq => hc (Or.inr heq.symm)

/-- The components of a cleaned name stand for themselves if none of them leads up. -/
theorem plain_of_up_notMem {p : Text} (h : up ∉ components p) : Plain (components p) := by
  intro c hc
  obtain ⟨hne, hslash⟩ := mem_components hc
  have hhere : here ∉ components p := here_notMem_reduce _ List.not_mem_nil
  exact ⟨hne, hslash, fun heq => hhere (heq ▸ hc), fun heq => h (heq ▸ hc)⟩

theorem join_absolute_relative {ds cs : List Text} (hds : Plain ds) (hcs : Plain cs)
    (hne : cs ≠ []) : join [absolute ds, relative cs] = absolute (ds ++ cs) := by
  have hsolid : ∀ c ∈ cs, c ≠ [] ∧ slash ∉ c := fun c hc => ⟨(hcs c hc).ne_nil, (hcs c hc).noSlash⟩
  have hpieces : (pieces (absolute ds ++ slash :: relative cs)).filter (· ≠ []) = ds ++ cs := by
    rw [pieces, Text.splitOn_append_sep, List.filter_append, ← pieces, ← pieces,
      filter_pieces_absolute hds, relative, if_neg hne, filter_pieces_intercalate hsolid]
  have hcomponents : components (absolute ds ++ slash :: relative cs) = ds ++ cs := by
    rw [components, ← reduce_filter, hpieces, reduce_plain _ _ (hds.append hcs)]
    rfl
  have habsolute : isAbsolute (absolute ds ++ slash :: relative cs) = true := rfl
  rw [join_eq_clean (by simp [absolute]), clean_eq_absolute habsolute, hcomponents]

end Path

/-! ### Two disks -/

namespace Disk

open Gauntlet.Path (Plain Ordinary)

variable {d d' : Disk} {p : Text} {l x : Location} {n : Node}

/-- A name leads to the same on two disks, whether it is opened, made or removed. -/
structure Agrees (d d' : Disk) (p : Text) : Prop where
  place : ∀ follow, d'.place follow p = d.place follow p
  holder : d'.holder p = d.holder p
  find : ∀ follow, d'.find follow p = d.find follow p

/-- A name never leads to the same location on two disks. -/
def Apart (d d' : Disk) (p : Text) : Prop :=
  ∀ x n x' n', d.find true p = .ok (x, n) → d'.find true p = .ok (x', n') → x ≠ x'

theorem Agrees.refl (d : Disk) (p : Text) : d.Agrees d p := ⟨fun _ => rfl, rfl, fun _ => rfl⟩

/-- The disk as it is seen from another directory. -/
def seenFrom (d : Disk) (l : Location) : Disk := { d with cwd := some l }

theorem walk_seenFrom (d : Disk) (l : Location) (follow : Bool) (links : Nat) (x : Location)
    (cs : List Text) : (d.seenFrom l).walk follow links x cs = d.walk follow links x cs :=
  walk_eq_of_visits follow links x cs fun _ _ => rfl

/-- The directory does not matter to an absolute name. -/
theorem agrees_of_absolute (d : Disk) (l : Location) (hp : Path.isAbsolute p = true) :
    d.Agrees (d.seenFrom l) p := by
  have hstart : (d.seenFrom l).start p = d.start p := by simp only [start, hp, if_true]
  have hplace : ∀ follow, (d.seenFrom l).place follow p = d.place follow p := by
    intro follow
    simp only [place, hstart, walk_seenFrom]
  refine ⟨hplace, ?_, ?_⟩
  · simp only [holder, hstart, walk_seenFrom]
  · intro follow
    simp only [find, hplace]
    rfl

theorem agrees_of_cwd (h : (d.seenFrom l).cwd = d.cwd) (p : Text) : d.Agrees (d.seenFrom l) p := by
  have hcwd : some l = d.cwd := h
  have hsame : d.seenFrom l = d := by rw [seenFrom, hcwd]
  rw [hsame]
  exact Agrees.refl d p

theorem cwd_of_start (hp : Path.isAbsolute p = false) (h : d.start p = .ok l) : d.cwd = some l := by
  unfold start at h
  simp only [hp, Bool.false_eq_true, if_false] at h
  split_ifs at h
  split at h
  · rename_i k hcwd
    rw [hcwd, Except.ok.inj h]
  · simp at h

theorem steps_relative {cs : List Text} (hcs : Plain cs) (hne : cs ≠ []) :
    steps (Path.relative cs) = cs := by
  obtain ⟨c, parts, hparts⟩ := List.exists_cons_of_ne_nil (List.reverse_ne_nil_iff.mpr hne)
  have hsolid : ∀ c' ∈ c :: parts, c' ≠ [] ∧ Path.slash ∉ c' := by
    intro c' hc'
    rw [← hparts, List.mem_reverse] at hc'
    exact ⟨(hcs c' hc').ne_nil, (hcs c' hc').noSlash⟩
  obtain ⟨hnil, hslash⟩ := hsolid c List.mem_cons_self
  have hsteps : steps (Trail.path ⟨false, c :: parts⟩) = (c :: parts).reverse :=
    steps_path ⟨hslash, hnil⟩ hsolid
  rw [path_of_not_rooted, ← hparts, List.reverse_reverse] at hsteps
  rwa [Path.relative, if_neg hne]

/-- Where no links are, a relative name that does not lead up leads to its own components below
    the directory. -/
theorem find_relative (hlinks : d.Unlinked []) (hp : Path.isAbsolute p = false)
    (hclean : Path.clean p = p) (hup : Path.up ∉ Path.components p)
    (h : d.find true p = .ok (x, n)) : ∃ l, d.cwd = some l ∧ x = l ++ Path.components p := by
  have hplain := Path.plain_of_up_notMem hup
  have hrelative := Path.eq_relative hp hclean
  have hplace := (find_eq_ok.mp h).1
  unfold place at hplace
  cases hstart : d.start p with
  | error e => simp [hstart] at hplace
  | ok l =>
    rw [hstart] at hplace
    dsimp only at hplace
    refine ⟨l, cwd_of_start hp hstart, ?_⟩
    by_cases hnil : Path.components p = []
    · -- The name is `.` then, which leads to the directory itself.
      rw [hnil] at hrelative ⊢
      have hsteps : steps p = [] ++ [Path.here] := by
        rw [hrelative]
        rfl
      rw [hsteps] at hplace
      obtain ⟨onLink, hback⟩ : ∃ onLink, d.walk true linkLimit l ([] ++ []) =
          d.walkWith true onLink x [] := walk_append (Or.inr rfl) linkLimit l [] hplace
      have hfound : Except.ok (Place.found l) = (.ok (.found x) : Except Errno Place) := hback
      simpa [eq_comm] using hfound
    · have hsteps : steps p = Path.components p := by
        rw [hrelative, steps_relative hplain hnil, ← hrelative]
      have hleads : Leads d l (Path.components p) (d.walk true linkLimit l (Path.components p)) :=
        d.walkWith_plain true _ hplain fun k _ _ _ target =>
          hlinks (l ++ k) (Or.inr List.nil_prefix) target
      rw [hsteps] at hplace
      exact hleads.found_iff hplace

/-- Where no links are, a relative name that does not lead up does not lead to the same location
    from another directory. -/
theorem apart_of_relative (hlinks : d.Unlinked []) (hp : Path.isAbsolute p = false)
    (hclean : Path.clean p = p) (hup : Path.up ∉ Path.components p) (hcwd : d.cwd ≠ some l) :
    d.Apart (d.seenFrom l) p := by
  intro x n x' n' hfind hfind' heq
  obtain ⟨k, hk, hx⟩ := find_relative hlinks hp hclean hup hfind
  obtain ⟨k', hk', hx'⟩ := find_relative (d := d.seenFrom l) hlinks hp hclean hup hfind'
  -- The same location below both directories makes them the same.
  have hsame : k = k' := by
    rw [heq, hx'] at hx
    exact (List.append_cancel_right hx).symm
  obtain rfl : l = k' := Option.some.inj hk'
  exact hcwd (hsame ▸ hk)

/-! ### Names below a directory -/

theorem walkWith_mono {follow : Bool} {onLink onLink' : Location → List Text → Except Errno Place}
    {r : Place} (hlink : ∀ l cs, onLink l cs = .ok r → onLink' l cs = .ok r)
    (l : Location) (cs : List Text) (h : d.walkWith follow onLink l cs = .ok r) :
    d.walkWith follow onLink' l cs = .ok r := by
  induction cs generalizing l with
  | nil => exact h
  | cons c rest ih =>
    cases goes_of_walkWith h with
    | here hl h' =>
      rw [walkWith_here hl]
      exact ih l h'
    | up hl h' =>
      rw [walkWith_up hl]
      exact ih l.dropLast h'
    | down hc hnode hnolink h' =>
      rw [hc.walkWith_down hnode hnolink]
      exact ih (l ++ [c]) h'
    | link hc hnode hfollow h' =>
      rw [hc.walkWith_link hnode hfollow]
      exact hlink _ _ h'
    | last hc hnode hrest hfollow hr =>
      rw [hc.walkWith_eq, hnode]
      simp [hrest, hfollow, hr]
    | free hc hnode hrest hr =>
      rw [hc.walkWith_eq, hnode]
      simp [hrest, hr]

/-- A walk that leads somewhere does so if it may follow more links. -/
theorem walk_mono {follow : Bool} {r : Place} {m links : Nat} (hm : m ≤ links) (l : Location)
    (cs : List Text) (h : d.walk follow m l cs = .ok r) : d.walk follow links l cs = .ok r := by
  induction links generalizing m l cs with
  | zero =>
    obtain rfl : m = 0 := by omega
    exact h
  | succ links ih =>
    cases m with
    | zero => exact walkWith_mono (by simp) l cs h
    | succ m => exact walkWith_mono (fun l cs => ih (by omega) l cs) l cs h

theorem walk_of_place_absolute {follow : Bool} {r : Place} {cs : List Text} (hcs : Plain cs)
    (h : d.place follow (Path.absolute cs) = .ok r) :
    d.start (Path.absolute cs) = .ok [] ∧ d.walk follow linkLimit [] cs = .ok r := by
  unfold place at h
  cases hstart : d.start (Path.absolute cs) with
  | error e => simp [hstart] at h
  | ok k =>
    obtain rfl := start_absolute hstart
    rw [hstart, steps_absolute hcs] at h
    exact ⟨rfl, h⟩

/-- The end of an absolute name can be looked up in a directory, as far as its form goes. -/
theorem start_relative {ds cs : List Text} (hcs : Plain cs) (hne : cs ≠ [])
    (h : d.start (Path.absolute (ds ++ cs)) = .ok x) :
    (d.seenFrom l).start (Path.relative cs) = .ok l := by
  obtain ⟨hzero, hlength, _⟩ := start_eq_ok h
  have hsuffix : Path.relative cs <:+ Path.absolute (ds ++ cs) := by
    rw [Path.relative, if_neg hne]
    exact (Text.suffix_intercalate _ ds cs).trans (List.suffix_cons _ _)
  have hzero' : (Path.relative cs).contains 0 = false := by
    simp only [List.contains_eq_mem, decide_eq_false_iff_not] at hzero ⊢
    exact fun hmem => hzero (hsuffix.subset hmem)
  have hlength' : ¬ pathLimit ≤ (Path.relative cs).length := by
    have := hsuffix.length_le
    omega
  have habsolute : Path.isAbsolute (Path.relative cs) = false :=
    Path.isAbsolute_relative fun c hc => ⟨(hcs c hc).ne_nil, (hcs c hc).noSlash⟩
  have hnil : Path.relative cs ≠ [] := by
    intro hnil
    have hsteps := steps_relative hcs hne
    rw [hnil] at hsteps
    exact hne hsteps.symm
  unfold start
  rw [hzero', if_neg Bool.false_ne_true, if_neg hnil, if_neg hlength', habsolute,
    if_neg Bool.false_ne_true]
  rfl

/-- What a name finds below the name of a directory, it finds in the directory. -/
theorem find_below {ds cs : List Text} {m : Node} (hds : Plain ds) (hcs : Plain cs) (hne : cs ≠ [])
    (hdir : d.find true (Path.absolute ds) = .ok (l, m))
    (h : d.find true (Path.absolute (ds ++ cs)) = .ok (x, n)) :
    (d.seenFrom l).find true (Path.relative cs) = .ok (x, n) := by
  obtain ⟨hplace, hx⟩ := find_eq_ok.mp h
  obtain ⟨hstart, hwalk⟩ := walk_of_place_absolute (hds.append hcs) hplace
  obtain ⟨_, hwalkDir⟩ := walk_of_place_absolute hds (find_eq_ok.mp hdir).1
  obtain ⟨c, rest, hcons⟩ := List.exists_cons_of_ne_nil hne
  -- The walk comes to the directory first.
  obtain ⟨y, hy⟩ := walk_front linkLimit [] ds (hcons ▸ hwalk)
  obtain ⟨onLink, hback⟩ : ∃ onLink, d.walk true linkLimit [] (ds ++ []) =
      d.walkWith true onLink y [] := walk_append (Or.inr rfl) linkLimit [] ds hy
  obtain rfl : l = y := by
    rw [List.append_nil, hwalkDir] at hback
    simpa [walkWith] using hback
  -- It goes on from there with fewer links than a walk that starts there.
  obtain ⟨links, hlinks, hon⟩ : ∃ links ≤ linkLimit, d.walk true linkLimit [] (ds ++ cs) =
      d.walk true links l cs := walk_append_le (Or.inr rfl) linkLimit [] ds hy
  have hinside : d.walk true linkLimit l cs = .ok (.found x) :=
    walk_mono hlinks l cs (hon.symm.trans hwalk)
  refine find_eq_ok.mpr ⟨?_, hx⟩
  rw [place, start_relative hcs hne hstart, steps_relative hcs hne]
  dsimp only
  rw [walk_seenFrom, hinside]

end Disk

/-! ### Starting a command -/

/-- What can be loaded is an executable file. -/
theorem Shell.Program.file_of_load {d : Disk} {depth : Nat} {called path : Text} {args : List Text}
    {program : Shell.Program} (h : load d depth called path args = .ok program) :
    ∃ x data mode t, d.find true path = .ok (x, .file data mode t) ∧
      (Node.file data mode t).executable = true := by
  cases depth with
  | zero => simp [load] at h
  | succ depth =>
    rw [load] at h
    split at h
    · simp at h
    · rename_i x data mode t hfind
      refine ⟨x, data, mode, t, hfind, ?_⟩
      cases hexecutable : (Node.file data mode t).executable with
      | true => rfl
      | false => simp [hexecutable] at h
    · simp at h

namespace Host

variable {d inside : Disk} {cmd : Command} {p : Text}

/-- The file that a command is started from is the one that a name leads to. -/
def Starts (d : Disk) (cmd : Command) (p : Text) : Prop :=
  ∃ path inside, programPath d cmd.program = .ok path ∧ enter d cmd.dir = .ok inside ∧
    inside.find true path = d.find true p

theorem programPath_of_slash {name : Text} (h : Path.slash ∈ name) :
    programPath d name = .ok name := by
  have hne : name ≠ [] := List.ne_nil_of_mem h
  have hcontains : name.contains Path.slash = true := by simpa using h
  rw [programPath, if_neg hne, if_pos hcontains]

theorem enter_cases {dir : Text} (hdir : dir ≠ []) (h : enter d dir = .ok inside) :
    ∃ l n, d.find true dir = .ok (l, n) ∧ inside = d.seenFrom l := by
  rw [enter, if_neg hdir] at h
  split at h
  · simp at h
  · rename_i l n hfind
    split_ifs at h
    exact ⟨l, n, hfind, (Except.ok.inj h).symm⟩

theorem starts_of_agrees (hslash : Path.slash ∈ cmd.program)
    (hinside : enter d cmd.dir = .ok inside) (h : d.Agrees inside cmd.program) :
    Starts d cmd cmd.program :=
  ⟨cmd.program, inside, programPath_of_slash hslash, hinside, h.find true⟩

theorem not_starts_of_apart (hslash : Path.slash ∈ cmd.program)
    (hinside : enter d cmd.dir = .ok inside) (h : d.Apart inside cmd.program) {x : Location}
    {n : Node} (hfind : d.find true cmd.program = .ok (x, n)) : ¬ Starts d cmd cmd.program := by
  rintro ⟨path, inside', hpath, hinside', hsame⟩
  obtain rfl : cmd.program = path := by simpa [programPath_of_slash hslash] using hpath
  obtain rfl : inside = inside' := by simpa [hinside] using hinside'
  exact h x n x n hfind (hsame.trans hfind) rfl

/-- A command that can be run is run from the file that it starts. -/
theorem Starts.file (h : Starts d cmd p) {path : Text} {program : Shell.Program}
    (hpath : programPath d cmd.program = .ok path)
    (hrun : prepare d path cmd = .ok (program, inside)) :
    ∃ x data mode t, d.find true p = .ok (x, .file data mode t) ∧
      (Node.file data mode t).executable = true := by
  obtain ⟨path', inside', hpath', hinside, hsame⟩ := h
  obtain rfl : path = path' := by simpa [hpath] using hpath'
  unfold prepare at hrun
  split_ifs at hrun
  rw [hinside] at hrun
  dsimp only at hrun
  split at hrun
  · simp at hrun
  · rename_i hload
    rw [← hsame]
    exact Shell.Program.file_of_load hload

end Host

/-! ### The names of a course -/

/-- The name that a plan gives for the program of a stage. -/
def CoursePlan.given? (plan : CoursePlan) (s : Stage) : Option Text :=
  if s = .interpret then some plan.launcher
  else if s = .link then some (plan.linker.headD Course.defaultLinker)
  else none

theorem Disk.isAbsolute_workingDir {d : Disk} {dir : Text} (h : d.workingDir = .ok dir) :
    Path.isAbsolute dir = true := by
  unfold Disk.workingDir at h
  split at h
  · obtain rfl := Except.ok.inj h
    exact Path.isAbsolute_absolute _
  · simp at h

namespace Course

variable {d inside : Disk} {plan : CoursePlan} {logs : Option LogSource} {c : Course} {case : Case}
  {s : Stage} {dir name p : Text}

theorem executable_of_slash (h : Path.slash ∈ name) :
    executable dir name = Path.anchor dir name := by
  have hcontains : name.contains Path.slash = true := by simpa using h
  rw [executable, if_pos hcontains]

theorem clean_executable (h : Path.slash ∈ executable dir name) :
    Path.clean (executable dir name) = executable dir name := by
  by_cases hslash : Path.slash ∈ name
  · obtain ⟨q, hq⟩ := Path.exists_clean_anchor (List.ne_nil_of_mem hslash) dir
    rw [executable_of_slash hslash, hq, Path.clean_clean]
  · have hcontains : ¬ name.contains Path.slash = true := by simpa using hslash
    rw [executable, if_neg hcontains] at h
    exact absurd h hslash

theorem dir_stageCommand (c : Course) (case : Case) (s : Stage) :
    (c.stageCommand case s).dir = c.workDir := by
  simp only [stageCommand]
  split_ifs <;> rfl

/-- The program of a stage: what the plan gives for it, or else the binary. -/
theorem program_stageCommand (plan : CoursePlan) (dir : Text) (logs : Option LogSource)
    (case : Case) (s : Stage) : ((ofPlanAt plan dir logs).stageCommand case s).program =
      (plan.given? s).elim ((ofPlanAt plan dir logs).artifacts case).binary (executable dir) := by
  simp only [stageCommand, CoursePlan.given?]
  split_ifs <;> rfl

theorem join_of_mem_paths (h : p ∈ (c.artifacts case).paths) :
    ∃ u, u ≠ [] ∧ p = Path.join [c.scratchDir, u] := by
  have hne : ∀ u : Text, u ≠ [] → case.name ++ u ≠ [] :=
    fun u hu hnil => hu (List.append_eq_nil_iff.mp hnil).2
  rcases Artifacts.mem_paths.mp h with rfl | rfl
  · exact ⟨_, hne ".s" (by decide), rfl⟩
  · exact ⟨_, hne ".out" (by decide), rfl⟩

theorem clean_of_mem_paths (h : p ∈ (c.artifacts case).paths) : Path.clean p = p := by
  obtain ⟨u, hu, rfl⟩ := join_of_mem_paths h
  obtain ⟨q, hq⟩ := Path.exists_clean_join hu c.scratchDir
  rw [hq, Path.clean_clean]

theorem isAbsolute_of_mem_paths (hscratch : c.scratchDir ≠ []) (h : p ∈ (c.artifacts case).paths) :
    Path.isAbsolute p = Path.isAbsolute c.scratchDir := by
  obtain ⟨u, _, rfl⟩ := join_of_mem_paths h
  exact Path.isAbsolute_join hscratch u

/-- The work directory is absolute if it was given so or is the working directory. -/
theorem workDir_cases (h : ofPlan d plan logs = .ok c) :
    c.workDir ≠ [] ∧ (Path.isAbsolute c.workDir = true ↔
      plan.workDir = [] ∨ Path.isAbsolute plan.workDir = true) := by
  obtain ⟨_, _, dir, rfl, ⟨hne, rfl⟩ | ⟨hnil, hcwd⟩⟩ := ofPlan_cases h
  · exact ⟨hne, by simp [ofPlanAt, hne]⟩
  · have habsolute := Disk.isAbsolute_workingDir hcwd
    refine ⟨List.ne_nil_of_mem (Path.slash_mem_of_absolute habsolute), ?_⟩
    simp [ofPlanAt, habsolute, hnil]

/-- The artifacts are below the work directory, unless the scratch directory is absolute. -/
theorem isAbsolute_artifact (h : ofPlan d plan logs = .ok c) (hp : p ∈ (c.artifacts case).paths) :
    Path.isAbsolute p = true ↔
      Path.isAbsolute plan.scratchDir = true ∨ Path.isAbsolute c.workDir = true := by
  have hne := (workDir_cases h).1
  obtain ⟨q, hq⟩ := exists_clean_scratchDir h
  have hscratch : c.scratchDir ≠ [] := hq ▸ Path.clean_ne_nil q
  obtain ⟨_, _, dir, rfl, _⟩ := ofPlan_cases h
  rw [isAbsolute_of_mem_paths hscratch hp]
  exact Path.isAbsolute_anchor hne plan.scratchDir

/-- A program that is given below the work directory has a name there. -/
theorem program_given (h : ofPlan d plan logs = .ok c) (hgiven : plan.given? s = some name)
    (hslash : Path.slash ∈ name) (hname : Path.isAbsolute name = false) :
    (c.stageCommand case s).program = Path.join [c.workDir, name] := by
  obtain ⟨_, _, dir, rfl, _⟩ := ofPlan_cases h
  rw [program_stageCommand, hgiven, Option.elim_some, executable_of_slash hslash, Path.anchor,
    hname, if_neg Bool.false_ne_true]
  rfl

theorem clean_program (h : ofPlan d plan logs = .ok c)
    (hslash : Path.slash ∈ (c.stageCommand case s).program) :
    Path.clean (c.stageCommand case s).program = (c.stageCommand case s).program := by
  obtain ⟨_, _, dir, rfl, _⟩ := ofPlan_cases h
  rw [program_stageCommand] at hslash ⊢
  cases hgiven : plan.given? s with
  | none => exact clean_of_mem_paths (Artifacts.binary_mem_paths _)
  | some name =>
    rw [hgiven] at hslash
    exact clean_executable hslash

/-- A course on one disk and its commands on another mean the same by their names: the files
    that are removed and looked for are those that the linker gets and the last command
    starts, and a program that is given below the work directory is started from there. -/
structure SharesNames (c : Course) (plan : CoursePlan) (case : Case) (d inside : Disk) : Prop where
  artifacts : ∀ p ∈ (c.artifacts case).paths,
    p ∈ (c.stageCommand case .link).args ∧ d.Agrees inside p
  binary : Host.Starts d (c.stageCommand case .execute) (c.artifacts case).binary
  program : ∀ s name, plan.given? s = some name → Path.slash ∈ name →
    Path.isAbsolute name = false →
    Host.Starts d (c.stageCommand case s) (Path.join [c.workDir, name])
  below : Path.clean c.workDir = c.workDir → ∀ name, Path.slash ∈ name →
    Path.isAbsolute name = false → Path.clean name = name → Path.up ∉ Path.components name →
    ∀ x n, d.find true (Path.join [c.workDir, name]) = .ok (x, n) →
      inside.find true name = .ok (x, n)

/-- In an absolute work directory all names mean the same. -/
theorem sharesNames_of_absolute {d₀ : Disk} (hplan : ofPlan d₀ plan logs = .ok c) (case : Case)
    (hinside : Host.enter d c.workDir = .ok inside) (hdir : Path.isAbsolute c.workDir = true) :
    c.SharesNames plan case d inside := by
  have hne := (workDir_cases hplan).1
  obtain ⟨l, m, hfind, rfl⟩ := Host.enter_cases hne hinside
  -- A command starts the file of its program, if that has an absolute name.
  have hstarts : ∀ s, Path.isAbsolute (c.stageCommand case s).program = true →
      Host.Starts d (c.stageCommand case s) (c.stageCommand case s).program := by
    intro s hprogram
    refine Host.starts_of_agrees (Path.slash_mem_of_absolute hprogram) ?_
      (d.agrees_of_absolute l hprogram)
    rw [dir_stageCommand]
    exact hinside
  constructor
  · intro p hp
    refine ⟨?_, d.agrees_of_absolute l ((isAbsolute_artifact hplan hp).mpr (Or.inr hdir))⟩
    show p ∈ c.linkerArgs ++ [(c.artifacts case).assembly, "-o", (c.artifacts case).binary]
    rcases List.mem_cons.mp hp with rfl | hp
    · simp
    · obtain rfl := List.mem_singleton.mp hp
      simp
  · have hbinary := (c.artifacts case).binary_mem_paths
    exact hstarts .execute ((isAbsolute_artifact hplan hbinary).mpr (Or.inr hdir))
  · intro s name hgiven hslash hname
    have hprogram : (c.stageCommand case s).program = Path.join [c.workDir, name] :=
      program_given hplan hgiven hslash hname
    rw [← hprogram]
    refine hstarts s ?_
    rw [hprogram, Path.isAbsolute_join hne, hdir]
  · intro hclean name hslash hname hcleanName hup x n hjoin
    have hds : c.workDir = Path.absolute (Path.components c.workDir) := by
      rw [← Path.clean_eq_absolute hdir, hclean]
    have hcs := Path.eq_relative hname hcleanName
    have hnil : Path.components name ≠ [] := by
      intro hnil
      rw [hcs, hnil] at hslash
      exact absurd hslash (by decide)
    have hplain := Path.plain_components hdir
    have hplain' := Path.plain_of_up_notMem hup
    rw [hds, hcs, Path.join_absolute_relative hplain hplain' hnil] at hjoin
    rw [hds] at hfind
    rw [hcs]
    exact Disk.find_below hplain hplain' hnil hfind hjoin

end Course

/-- Names mean the same to a course and to its commands if the work directory is absolute or
    none is given. In a relative work directory the artifacts do if the scratch directory is
    absolute or the work directory is the working directory. Otherwise, where no links are, no
    relative name does that leads down. -/
theorem Course.names_agree {d₀ d inside : Disk} {plan : CoursePlan} {logs : Option LogSource}
    {c : Course} (hplan : Course.ofPlan d₀ plan logs = .ok c) (case : Case)
    (hinside : Host.enter d c.workDir = .ok inside) :
    (plan.workDir = [] ∨ Path.isAbsolute plan.workDir = true → c.SharesNames plan case d inside) ∧
    (Path.isAbsolute plan.scratchDir = true ∨ inside.cwd = d.cwd →
      (∀ p ∈ (c.artifacts case).paths, d.Agrees inside p) ∧
      (Path.slash ∈ (c.artifacts case).binary →
        Host.Starts d (c.stageCommand case .execute) (c.artifacts case).binary)) ∧
    (d.Unlinked [] → inside.cwd ≠ d.cwd →
      (∀ p ∈ (c.artifacts case).paths, Path.isAbsolute p = false → Path.up ∉ Path.components p →
        d.Apart inside p) ∧
      ∀ s, Path.isAbsolute (c.stageCommand case s).program = false →
        Path.slash ∈ (c.stageCommand case s).program →
        Path.up ∉ Path.components (c.stageCommand case s).program →
        ∀ x n, d.find true (c.stageCommand case s).program = .ok (x, n) →
          ¬ Host.Starts d (c.stageCommand case s) (c.stageCommand case s).program) := by
  obtain ⟨hne, habsolute⟩ := Course.workDir_cases hplan
  refine ⟨fun hdir => ?_, fun hscratch => ?_, fun hlinks hcwd => ?_⟩
  · exact Course.sharesNames_of_absolute hplan case hinside (habsolute.mpr hdir)
  · obtain ⟨l, m, _, rfl⟩ := Host.enter_cases hne hinside
    have hagrees : ∀ p ∈ (c.artifacts case).paths, d.Agrees (d.seenFrom l) p := by
      intro p hp
      rcases hscratch with hscratch | hcwd
      · exact d.agrees_of_absolute l ((Course.isAbsolute_artifact hplan hp).mpr (Or.inl hscratch))
      · exact Disk.agrees_of_cwd hcwd p
    refine ⟨hagrees, fun hslash => ?_⟩
    exact Host.starts_of_agrees hslash hinside (hagrees _ (Artifacts.binary_mem_paths _))
  · obtain ⟨l, m, _, rfl⟩ := Host.enter_cases hne hinside
    refine ⟨fun p hp hrelative hup => ?_, fun s hrelative hslash hup x n hfind => ?_⟩
    · exact Disk.apart_of_relative hlinks hrelative (Course.clean_of_mem_paths hp) hup hcwd.symm
    · have hapart := Disk.apart_of_relative hlinks hrelative (Course.clean_program hplan hslash) hup
        hcwd.symm
      refine Host.not_starts_of_apart hslash ?_ hapart hfind
      rw [Course.dir_stageCommand]
      exact hinside

namespace Sample

/-- The working directory is `/w`, and everything is below `/w/p`. -/
def workshop : Disk where
  nodes := (((((((SortedMap.empty.insert [] (.dir 0o755 ⟨0, 0⟩)).insert
    [("w" : Text)] (.dir 0o755 ⟨0, 0⟩)).insert
    [("w" : Text), ("p" : Text)] (.dir 0o755 ⟨0, 0⟩)).insert
    [("w" : Text), ("p" : Text), ("bin" : Text)] (.dir 0o755 ⟨0, 0⟩)).insert
    [("w" : Text), ("p" : Text), ("bin" : Text), ("l" : Text)] (.file [] 0o755 ⟨0, 0⟩)).insert
    [("w" : Text), ("p" : Text), ("tmp" : Text)] (.dir 0o755 ⟨0, 0⟩)).insert
    [("w" : Text), ("p" : Text), ("tmp" : Text), ("a.s" : Text)] stale).insert
    [("w" : Text), ("p" : Text), ("tmp" : Text), ("a.out" : Text)] stale
  cwd := some [("w" : Text)]
  now := ⟨0, 0⟩

def project : Location := [("w" : Text), ("p" : Text)]

/-- A plan with everything below the work directory. -/
def planAt (dir : Text) : CoursePlan where
  workDir := dir
  scratchDir := "tmp"
  launcher := "bin/l"
  linker := [("./bin/l" : Text), ("-v" : Text)]

def courseAt (dir : Text) : Course := Course.ofPlanAt (planAt dir) dir none

theorem enter_project : Host.enter workshop "/w/p" = .ok (workshop.seenFrom project) ∧
    Host.enter workshop "p" = .ok (workshop.seenFrom project) := by
  constructor <;> rfl

/-- The same files under an absolute and under a relative work directory. -/
theorem names_agree_workshop :
    (Course.ofPlan workshop (planAt "/w/p") none = .ok (courseAt "/w/p") ∧
      (courseAt "/w/p").SharesNames (planAt "/w/p") case workshop (workshop.seenFrom project) ∧
      (workshop.seenFrom project).find true "bin/l" =
        .ok (project ++ [("bin" : Text), ("l" : Text)], .file [] 0o755 ⟨0, 0⟩)) ∧
    Course.ofPlan workshop (planAt "p") none = .ok (courseAt "p") ∧
    workshop.Apart (workshop.seenFrom project) "p/tmp/a.s" ∧
    ¬ Host.Starts workshop ((courseAt "p").stageCommand case .execute) "p/tmp/a.out" := by
  have hplan : Course.ofPlan workshop (planAt "/w/p") none = .ok (courseAt "/w/p") := rfl
  have hshares := (Course.names_agree hplan case enter_project.1).1 (Or.inr rfl)
  have hplan' : Course.ofPlan workshop (planAt "p") none = .ok (courseAt "p") := rfl
  obtain ⟨happart, hstarts⟩ := (Course.names_agree hplan' case enter_project.2).2.2
    (by decide +kernel) (by decide)
  refine ⟨⟨hplan, hshares, ?_⟩, hplan', ?_, ?_⟩
  · exact hshares.below (by decide +kernel) "bin/l" (by decide) rfl (by decide +kernel)
      (by decide +kernel) _ _ rfl
  · exact happart "p/tmp/a.s" (by decide +kernel) rfl (by decide +kernel)
  · have hprogram : ((courseAt "p").stageCommand case .execute).program = "p/tmp/a.out" := by
      decide +kernel
    have hnot := hstarts .execute
    rw [hprogram] at hnot
    exact hnot rfl (by decide) (by decide +kernel) _ _ rfl

/-- A scratch directory that is the working directory, which is the work directory. -/
def flat : CoursePlan where
  workDir := "."
  scratchDir := "."
  launcher := "/w/p/bin/l"

def flatCourse : Course := Course.ofPlanAt flat "." none

/-- Below a relative work directory the linker does not get the assembly that the course has
    found, and the launcher that is there is not started. A binary whose name has no slash is
    looked for on the search path. -/
theorem names_can_differ :
    (Course.ofPlan workshop (planAt "p") none = .ok (courseAt "p") ∧
      Host.enter workshop (courseAt "p").workDir = .ok (workshop.seenFrom project) ∧
      ((courseAt "p").hindrance? case .link { disk := workshop }).isNone = true ∧
      ((workshop.seenFrom project).find true ((courseAt "p").artifacts case).assembly).toOption =
        none ∧
      (workshop.find true "p/bin/l").toOption.isSome = true ∧
      ¬ Host.Starts workshop ((courseAt "p").stageCommand case .interpret) "p/bin/l") ∧
    Course.ofPlan workshop flat none = .ok flatCourse ∧ Host.enter workshop "." = .ok workshop ∧
    ¬ Host.Starts workshop (flatCourse.stageCommand case .execute) "a.out" := by
  refine ⟨⟨rfl, enter_project.2, by decide +kernel, by decide +kernel, by decide +kernel, ?_⟩,
    rfl, rfl, ?_⟩
  · have hlinks : workshop.Unlinked [] := by decide +kernel
    have hprogram : ((courseAt "p").stageCommand case .interpret).program = "p/bin/l" := by
      decide +kernel
    have hapart : workshop.Apart (workshop.seenFrom project) "p/bin/l" :=
      Disk.apart_of_relative hlinks rfl (by decide +kernel) (by decide +kernel) (by decide)
    have hfind : workshop.find true "p/bin/l" =
        .ok (project ++ [("bin" : Text), ("l" : Text)], .file [] 0o755 ⟨0, 0⟩) := rfl
    have hslash : Path.slash ∈ ("p/bin/l" : Text) := by decide
    rw [← hprogram] at hapart hfind hslash ⊢
    exact Host.not_starts_of_apart hslash enter_project.2 hapart hfind
  · rintro ⟨path, inside, hpath, _⟩
    have hnone : (Host.programPath workshop
        (flatCourse.stageCommand case .execute).program).toOption = none := by decide +kernel
    rw [hpath] at hnone
    simp [Except.toOption] at hnone

end Sample

end Gauntlet
