import Gauntlet.Proofs.Acceptance
import Gauntlet.Proofs.SettingKeys
import Mathlib.Data.List.Nodup

/-! # Flags win over the file, and the file over the defaults

  A value can be given by an argument, by an environment variable, by the settings file, or not at
  all. The flags are a table, and every key has its row there: `Flag.Serves` is the row of a key,
  and the other rows leave what it gives (`leaves_known`). From one row and one argument
  (`given_store`, `given_fromVariable`) follows what a whole environment and a whole command line
  give: the last argument of a flag, else its environment variable (`given_of_read`).

  The settings are then picked key by key, which is the rule of `Settings.keys`. The main
  statement (`Settings.picked_by_precedence`) puts the two together, and says that a file has no
  say where a flag was given.
-/

namespace Gauntlet

open CommandLine (Argument)

/-! ### Rows of the table -/

namespace FlagValue

/-- A flag gives the values of a key, and has its default. -/
inductive Gives : (κ : Kind) → (Given → Option κ.Value) → (default : κ.Value) → FlagValue → Prop
  | text {given : Given → Option Text} {d : Text} {put : Text → Given → Given}
      (hput : ∀ v g, given (put v g) = some v) : Gives .text given d (.text d put)
  | words {given : Given → Option (List Text)} {d : Text} {put : Text → Given → Given}
      (hput : ∀ v g, given (put v g) = some (Text.words v)) :
      Gives .words given (Text.words d) (.text d put)
  | truth {given : Given → Option Bool} {put : Bool → Given → Given}
      (hput : ∀ v g, given (put v g) = some v) : Gives .truth given false (.truth put)
  | number {given : Given → Option Int} {d : Int} {put : Int → Given → Given}
      (hput : ∀ v g, given (put v g) = some v) : Gives .number given d (.number d put)
  | duration {given : Given → Option Duration} {d : Duration} {put : Duration → Given → Given}
      (hput : ∀ v g, given (put v g) = some v) : Gives .duration given d (.duration d put)

/-- An empty environment variable of the flag gives nothing. -/
def skipsEmpty : FlagValue → Bool
  | .number _ _ | .duration _ _ | .word _ _ _ => true
  | .text _ _ | .truth _ => false

/-- A flag leaves a value as it was. -/
def Leaves {α : Type} (given : Given → Option α) : FlagValue → Prop
  | .text _ put => ∀ v g, given (put v g) = given g
  | .truth put => ∀ v g, given (put v g) = given g
  | .number _ put => ∀ v g, given (put v g) = given g
  | .duration _ put => ∀ v g, given (put v g) = given g
  | .word _ _ put => ∀ v g, given (put v g) = given g

end FlagValue

namespace Flag

/-- A flag is the flag of a key. -/
structure Serves (f : Flag) (k : Key) : Prop where
  name : f.name = k.name
  environment : f.environment = some (variableOf k.name)
  value : f.value.Gives k.kind k.given k.default

/-- The flags of a command line. -/
def known (versioned : Bool) : List Flag :=
  all ++ [help] ++ (if versioned then [version] else [])

theorem known_subset (versioned : Bool) {f : Flag} (h : f ∈ known versioned) : f ∈ known true := by
  cases versioned with
  | true => exact h
  | false => exact List.mem_append_left _ (by simpa [known] using h)

/-- A flag leaves what the flags of other names give. -/
theorem leaves_known : ∀ k ∈ Settings.allKeys, ∀ f ∈ known true,
    f.name ≠ k.name → f.value.Leaves k.given := by
  simp only [Settings.allKeys, Settings.keys, Settings.buildKeys, Settings.runIntervalKey,
    Key.skipBuild, known, all, settings, logging, metrics, help, version, make, FlagValue.Leaves,
    List.cons_append, List.nil_append, List.map_cons, List.map_nil, if_true, List.forall_mem_cons,
    List.not_mem_nil, ne_eq, not_true_eq_false, false_imp_iff, implies_true, and_self]

theorem exists_serves {k : Key} (i : Nat) {f : Flag} (hf : all[i]? = some f) (h : f.Serves k) :
    ∃ f ∈ all, f.Serves k := ⟨f, List.mem_of_getElem? hf, h⟩

theorem serves_all : ∀ k ∈ Settings.allKeys, ∃ f ∈ all, f.Serves k := by
  simp only [Settings.allKeys, Settings.keys, Settings.buildKeys, List.cons_append,
    List.nil_append, List.map_cons, List.map_nil, List.forall_mem_cons]
  -- The places of the flags in the table, in the order of the keys.
  refine ⟨exists_serves 6 rfl ?_, exists_serves 1 rfl ?_, exists_serves 2 rfl ?_,
    exists_serves 3 rfl ?_, exists_serves 4 rfl ?_, exists_serves 7 rfl ?_,
    exists_serves 9 rfl ?_, exists_serves 10 rfl ?_, exists_serves 11 rfl ?_,
    exists_serves 12 rfl ?_, exists_serves 13 rfl ?_, exists_serves 14 rfl ?_,
    exists_serves 15 rfl ?_, exists_serves 16 rfl ?_, exists_serves 17 rfl ?_,
    exists_serves 22 rfl ?_, exists_serves 23 rfl ?_, exists_serves 24 rfl ?_,
    exists_serves 5 rfl ?_, exists_serves 8 rfl ?_, by simp⟩
  all_goals exact ⟨rfl, rfl, by constructor; intros; rfl⟩

theorem nodup_names : ((known true).map name).Nodup := by decide +kernel

/-- Each flag serves a key, or has nothing to do with it. -/
theorem serves_or_leaves {k : Key} (hk : k ∈ Settings.allKeys) {versioned : Bool} {f : Flag}
    (hf : f ∈ known versioned) : f.Serves k ∨ f.name ≠ k.name ∧ f.value.Leaves k.given := by
  have hknown := known_subset versioned hf
  by_cases hname : f.name = k.name
  · -- Names are unique, so this is the flag of the key.
    obtain ⟨f', hf', hserves⟩ := serves_all k hk
    have hknown' : f' ∈ known true := List.mem_append_left _ (List.mem_append_left _ hf')
    have hsame : f = f' := List.inj_on_of_nodup_map nodup_names hknown hknown'
      (hname.trans hserves.name.symm)
    exact .inl (hsame ▸ hserves)
  · exact .inr ⟨hname, leaves_known k hk f hknown hname⟩

end Flag

/-! ### One value -/

/-- The value that an environment variable spells. An empty variable is false, or gives
    nothing. -/
def Kind.readVariable : (κ : Kind) → Text → Option κ.Value
  | .truth, [] => some false
  | .number, [] => none
  | .duration, [] => none
  | κ, t => κ.read t

/-- A variable that spells a value gives it. -/
theorem Kind.readVariable_of_read {κ : Kind} {t : Text} {v : κ.Value} (h : κ.read t = some v) :
    κ.readVariable t = some v := by
  cases t with
  | nil =>
    cases κ with
    | text => exact h
    | words => exact h
    | truth =>
      have hnone : truthOf? [] = none := by decide +kernel
      rw [Kind.read, hnone] at h
      simp at h
    | number =>
      have hnone : (Numeral.readInt []).toOption = none := by decide +kernel
      rw [Kind.read, hnone] at h
      simp at h
    | duration =>
      have hnone : (Duration.read []).toOption = none := by decide +kernel
      rw [Kind.read, hnone] at h
      simp at h
  | cons b t => cases κ <;> exact h

namespace CommandLine

variable {k : Key} {f : Flag} {name source value : Text} {g g' : Given}

/-- What the flag of a key takes is the value that the text spells. -/
theorem given_store (hf : f.value.Gives k.kind k.given k.default)
    (h : store f name value g = .ok g') :
    ∃ v, k.kind.read value = some v ∧ k.given g' = some v := by
  obtain ⟨κ, kname, given, file, default⟩ := k
  obtain ⟨fname, short, environment, usage, fvalue⟩ := f
  dsimp only at hf
  unfold store at h
  cases hf with
  | text hput =>
    obtain rfl := Except.ok.inj h
    exact ⟨value, rfl, hput value g⟩
  | words hput =>
    obtain rfl := Except.ok.inj h
    exact ⟨Text.words value, rfl, hput value g⟩
  | truth hput =>
    dsimp only at h
    split at h
    · rename_i b hread
      obtain rfl := Except.ok.inj h
      exact ⟨b, hread, hput b g⟩
    · simp at h
  | number hput =>
    dsimp only at h
    split at h
    · rename_i n hread
      obtain rfl := Except.ok.inj h
      exact ⟨n, by rw [Kind.read, hread]; rfl, hput n g⟩
    · simp at h
  | duration hput =>
    dsimp only at h
    split at h
    · rename_i v hread
      obtain rfl := Except.ok.inj h
      exact ⟨v, by rw [Kind.read, hread]; rfl, hput v g⟩
    · simp at h

theorem given_store_of_leaves (hf : f.value.Leaves k.given) (h : store f name value g = .ok g') :
    k.given g' = k.given g := by
  obtain ⟨fname, short, environment, usage, fvalue⟩ := f
  unfold store at h
  cases fvalue with
  | text d put =>
    obtain rfl := Except.ok.inj h
    exact hf value g
  | truth put =>
    dsimp only at h
    split at h
    · obtain rfl := Except.ok.inj h
      exact hf _ g
    · simp at h
  | number d put =>
    dsimp only at h
    split at h
    · obtain rfl := Except.ok.inj h
      exact hf _ g
    · simp at h
  | duration d put =>
    dsimp only at h
    split at h
    · obtain rfl := Except.ok.inj h
      exact hf _ g
    · simp at h
  | word d problem put =>
    dsimp only at h
    split at h
    · obtain rfl := Except.ok.inj h
      exact hf _ g
    · simp at h

/-- A variable is taken like an argument, unless it is empty: then it is false, or gives
    nothing. -/
theorem fromVariable_cases (h : fromVariable f source value g = .ok g') :
    store f f.name value g = .ok g' ∨ value = [] ∧
      ((∃ put, f.value = .truth put ∧ g' = put false g) ∨
        f.value.skipsEmpty = true ∧ g' = g) := by
  obtain ⟨fname, short, environment, usage, fvalue⟩ := f
  unfold fromVariable at h
  unfold store
  cases fvalue with
  | text d put => exact .inl h
  | truth put =>
    dsimp only at h ⊢
    split at h
    · rename_i hempty
      exact .inr ⟨hempty, .inl ⟨put, rfl, (Except.ok.inj h).symm⟩⟩
    · split at h
      · exact .inl h
      · simp at h
  | number d put =>
    dsimp only at h ⊢
    split at h
    · rename_i hempty
      exact .inr ⟨hempty, .inr ⟨rfl, (Except.ok.inj h).symm⟩⟩
    · split at h
      · exact .inl h
      · simp at h
  | duration d put =>
    dsimp only at h ⊢
    split at h
    · rename_i hempty
      exact .inr ⟨hempty, .inr ⟨rfl, (Except.ok.inj h).symm⟩⟩
    · split at h
      · exact .inl h
      · simp at h
  | word d problem put =>
    dsimp only at h ⊢
    split at h
    · rename_i hempty
      exact .inr ⟨hempty, .inr ⟨rfl, (Except.ok.inj h).symm⟩⟩
    · split at h
      · exact .inl h
      · simp at h

theorem given_fromVariable (hf : f.value.Gives k.kind k.given k.default)
    (h : fromVariable f source value g = .ok g') :
    k.given g' = (k.kind.readVariable value).or (k.given g) := by
  rcases fromVariable_cases h with hstore | ⟨rfl, ⟨put, hput, rfl⟩ | ⟨hskips, rfl⟩⟩
  · obtain ⟨v, hread, hgiven⟩ := given_store hf hstore
    rw [hgiven, Kind.readVariable_of_read hread]
    rfl
  · obtain ⟨κ, kname, given, file, default⟩ := k
    rw [hput] at hf
    cases hf with
    | truth hgives => exact hgives false g
  · obtain ⟨κ, kname, given, file, default⟩ := k
    generalize f.value = fvalue at hf hskips
    cases hf with
    | text hgives => simp [FlagValue.skipsEmpty] at hskips
    | words hgives => simp [FlagValue.skipsEmpty] at hskips
    | truth hgives => simp [FlagValue.skipsEmpty] at hskips
    | number hgives => rfl
    | duration hgives => rfl

theorem given_fromVariable_of_leaves (hf : f.value.Leaves k.given)
    (h : fromVariable f source value g = .ok g') : k.given g' = k.given g := by
  rcases fromVariable_cases h with hstore | ⟨rfl, ⟨put, hput, rfl⟩ | ⟨_, rfl⟩⟩
  · exact given_store_of_leaves hf hstore
  · rw [hput] at hf
    exact hf false g
  · rfl

end CommandLine

/-! ### The environment -/

/-- What the environment says. -/
def Key.fromEnvironment (k : Key) (env : Environment) : Option k.kind.Value :=
  (env.lookup (Flag.variableOf k.name)).bind k.kind.readVariable

/-- Each of the flags serves a key, or has nothing to do with it. -/
def Key.Tabled (k : Key) (flags : List Flag) : Prop :=
  ∀ f ∈ flags, f.Serves k ∨ f.name ≠ k.name ∧ f.value.Leaves k.given

namespace CommandLine

variable {k : Key} {flags : List Flag} {env : Environment} {g g' : Given}

/-- The variable of one flag is taken first. -/
theorem fromEnvironment_cons {f : Flag} (h : fromEnvironment env (f :: flags) g = .ok g') :
    ∃ g₁, fromEnvironment env flags g₁ = .ok g' ∧
      (f.Serves k → k.given g₁ = (k.fromEnvironment env).or (k.given g)) ∧
      (f.value.Leaves k.given → k.given g₁ = k.given g) := by
  rw [fromEnvironment] at h
  split at h
  · rename_i hnone
    refine ⟨g, h, fun hserves => ?_, fun _ => rfl⟩
    have hlookup : env.lookup (Flag.variableOf k.name) = none := by
      simpa [hserves.environment] using hnone
    rw [Key.fromEnvironment, hlookup]
    rfl
  · rename_i source value hsome
    split at h
    · simp at h
    · rename_i g₁ hvariable
      refine ⟨g₁, h, fun hserves => ?_, fun hleaves =>
        given_fromVariable_of_leaves hleaves hvariable⟩
      have hlookup : env.lookup (Flag.variableOf k.name) = some value := by
        rw [hserves.environment, Option.bind_some, Option.map_eq_some_iff] at hsome
        obtain ⟨value', hvalue, hpair⟩ := hsome
        rw [hvalue, (Prod.mk.inj hpair).2]
      rw [given_fromVariable hserves.value hvariable, Key.fromEnvironment, hlookup]
      rfl

/-- Once the variable of a key has been taken, it stays so. -/
theorem given_fromEnvironment_kept (htable : k.Tabled flags)
    (h : fromEnvironment env flags g = .ok g') {x : Option k.kind.Value}
    (hg : k.given g = (k.fromEnvironment env).or x) :
    k.given g' = (k.fromEnvironment env).or x := by
  induction flags generalizing g with
  | nil =>
    obtain rfl := Except.ok.inj h
    exact hg
  | cons f flags ih =>
    obtain ⟨g₁, hrest, hserves, hleaves⟩ := fromEnvironment_cons (k := k) h
    refine ih (fun f hf => htable f (List.mem_cons_of_mem _ hf)) hrest ?_
    rcases htable f List.mem_cons_self with hf | hf
    · rw [hserves hf, hg, ← Option.or_assoc, Option.or_self]
    · rw [hleaves hf.2, hg]

/-- The environment gives what the variable of a key says. -/
theorem given_fromEnvironment (htable : k.Tabled flags) (hserved : ∃ f ∈ flags, f.Serves k)
    (h : fromEnvironment env flags g = .ok g') :
    k.given g' = (k.fromEnvironment env).or (k.given g) := by
  induction flags generalizing g with
  | nil => simp at hserved
  | cons f flags ih =>
    have hrestTable : k.Tabled flags := fun f hf => htable f (List.mem_cons_of_mem _ hf)
    obtain ⟨g₁, hrest, hserves, hleaves⟩ := fromEnvironment_cons (k := k) h
    by_cases hf : f.Serves k
    · exact given_fromEnvironment_kept hrestTable hrest (hserves hf)
    · have hserved' : ∃ f ∈ flags, f.Serves k := by
        obtain ⟨f', hmem, hf'⟩ := hserved
        rcases List.mem_cons.mp hmem with rfl | hmem
        · exact absurd hf' hf
        · exact ⟨f', hmem, hf'⟩
      have hother := (htable f List.mem_cons_self).resolve_left hf
      rw [ih hrestTable hserved' hrest, hleaves hother.2]

/-! ### Arguments -/

/-- The assignments that arguments make, in their order, and what is positional. -/
inductive Assigned (flags : List Flag) : List Text → List (Flag × Text) → List Text → Prop
  | done : Assigned flags [] [] []
  | positional {arg : Text} {rest : List Text} (harg : Argument.ofText arg = .positional) :
      Assigned flags (arg :: rest) [] (arg :: rest)
  | separator {arg : Text} {rest : List Text} (harg : Argument.ofText arg = .separator) :
      Assigned flags (arg :: rest) [] rest
  /-- A flag with its value after `=`. -/
  | joined {arg name value : Text} {f : Flag} {rest : List Text} {as : List (Flag × Text)}
      {pos : List Text} (harg : Argument.ofText arg = .flag name (some value))
      (hf : find? flags name = some f) (hrest : Assigned flags rest as pos) :
      Assigned flags (arg :: rest) ((f, value) :: as) pos
  /-- A truth flag without a value. -/
  | switched {arg name : Text} {f : Flag} {rest : List Text} {as : List (Flag × Text)}
      {pos : List Text} (harg : Argument.ofText arg = .flag name none)
      (hf : find? flags name = some f) (htruth : f.isTruth = true)
      (hrest : Assigned flags rest as pos) :
      Assigned flags (arg :: rest) ((f, "true") :: as) pos
  /-- Any other flag takes the next argument. -/
  | separate {arg name value : Text} {f : Flag} {rest : List Text} {as : List (Flag × Text)}
      {pos : List Text} (harg : Argument.ofText arg = .flag name none)
      (hf : find? flags name = some f) (htruth : f.isTruth = false)
      (hrest : Assigned flags rest as pos) :
      Assigned flags (arg :: value :: rest) ((f, value) :: as) pos

end CommandLine

/-- What the last assignment to a key says. -/
def Key.lastOf (k : Key) : List (Flag × Text) → Option k.kind.Value
  | [] => none
  | a :: as => (k.lastOf as).or (if a.1.name = k.name then k.kind.read a.2 else none)

namespace CommandLine

variable {k : Key} {flags : List Flag}

/-- One assignment, and then others. -/
theorem given_assign {f : Flag} {name value : Text} {g g₁ : Given}
    {as : List (Flag × Text)} {x : Option k.kind.Value} (htable : k.Tabled flags)
    (hf : find? flags name = some f) (hstore : store f name value g = .ok g₁)
    (hx : x = (k.lastOf as).or (k.given g₁)) :
    x = (k.lastOf ((f, value) :: as)).or (k.given g) := by
  have hmem : f ∈ flags := List.mem_of_find?_eq_some hf
  rw [hx, Key.lastOf, Option.or_assoc]
  congr 1
  rcases htable f hmem with hserves | ⟨hname, hleaves⟩
  · obtain ⟨v, hread, hgiven⟩ := given_store hserves.value hstore
    rw [hgiven, if_pos hserves.name, hread]
    rfl
  · rw [given_store_of_leaves hleaves hstore, if_neg hname]
    rfl

/-- Arguments are assignments, of which the last one counts for each key. -/
theorem assigned_of_parse {args : List Text} {p p' : Parsed} (h : parse flags args p = .ok p')
    (hp : p.positional = []) :
    ∃ as, Assigned flags args as p'.positional ∧ ∀ k : Key, k.Tabled flags →
      k.given p'.given = (k.lastOf as).or (k.given p.given) := by
  fun_induction parse flags args p with
  | case1 p =>
    obtain rfl := Except.ok.inj h
    refine ⟨[], ?_, fun k _ => rfl⟩
    rw [hp]
    exact .done
  | case2 arg rest p harg =>
    obtain rfl := Except.ok.inj h
    exact ⟨[], .positional harg, fun k _ => rfl⟩
  | case3 arg rest p harg =>
    obtain rfl := Except.ok.inj h
    exact ⟨[], .separator harg, fun k _ => rfl⟩
  | case4 => simp at h
  | case5 => simp at h
  | case6 => simp at h
  | case7 arg rest p name value harg f hf v hv g₁ hstore ih =>
    obtain ⟨as, hrest, hgiven⟩ := ih h hp
    refine ⟨(f, v) :: as, ?_, fun k htable => given_assign htable hf hstore (hgiven k htable)⟩
    cases value with
    | some value =>
      obtain rfl : value = v := by simpa using hv
      exact .joined harg hf hrest
    | none =>
      rw [Option.none_or] at hv
      split at hv
      · rename_i htruth
        obtain rfl := Option.some.inj hv
        exact .switched harg hf htruth hrest
      · simp at hv
  | case8 => simp at h
  | case9 => simp at h
  | case10 arg p name value harg f hf hv v rest g₁ hstore ih =>
    obtain ⟨as, hrest, hgiven⟩ := ih h hp
    refine ⟨(f, v) :: as, ?_, fun k htable => given_assign htable hf hstore (hgiven k htable)⟩
    obtain ⟨rfl, hnone⟩ := Option.or_eq_none_iff.mp hv
    have htruth : f.isTruth = false := by simpa using hnone
    exact .separate harg hf htruth hrest

/-! ### Requests -/

theorem helpOn_ne_run (byCommand : Bool) (positional : List Text) (g : Given) (pos : List Text) :
    helpOn byCommand positional ≠ .ok (.run g pos) := by
  cases positional with
  | nil => simp [helpOn]
  | cons t rest =>
    unfold helpOn
    dsimp only
    split <;> simp

theorem helpCommand_ne_run (depth : Nat) (args : List Text) (g : Given) (pos : List Text) :
    helpCommand depth args ≠ .ok (.run g pos) := by
  induction depth generalizing args with
  | zero => simp [helpCommand]
  | succ depth ih =>
    unfold helpCommand
    split
    · simp
    · split
      · exact helpOn_ne_run _ _ _ _
      · split
        · simp
        · split
          · exact ih _
          · exact helpOn_ne_run _ _ _ _

/-- A run is asked for by what was read. -/
theorem read_of_request {versioned : Bool} {env : Environment} {args : List Text} {g : Given}
    {pos : List Text} (h : request versioned env args = .ok (.run g pos)) :
    ∃ p, read (Flag.known versioned) env args = .ok p ∧ p.given = g ∧ p.positional = pos := by
  unfold request at h
  dsimp only at h
  split at h
  · simp at h
  · rename_i p hread
    refine ⟨p, hread, ?_⟩
    split at h
    · exact absurd h (helpOn_ne_run _ _ _ _)
    · split at h
      · simp at h
      · split at h
        · rename_i hnil
          simp only [Except.ok.injEq, Request.run.injEq] at h
          exact ⟨h.1, hnil.trans h.2⟩
        · rename_i hcons
          split at h
          · exact absurd h (helpCommand_ne_run _ _ _ _)
          · simp only [Except.ok.injEq, Request.run.injEq] at h
            exact ⟨h.1, hcons.trans h.2⟩

/-- What was given explicitly: by the last argument of the flag, else by its variable. -/
theorem given_of_request {versioned : Bool} {env : Environment} {args : List Text} {g : Given}
    {pos : List Text} (h : request versioned env args = .ok (.run g pos)) :
    ∃ as, Assigned (Flag.known versioned) args as pos ∧ ∀ k ∈ Settings.allKeys,
      k.given g = (k.lastOf as).or (k.fromEnvironment env) := by
  obtain ⟨p, hread, rfl, rfl⟩ := read_of_request h
  unfold read at hread
  split at hread
  · simp at hread
  · rename_i g₀ henv
    split at hread
    · simp at hread
    · rename_i p' hparse
      split at hread
      · simp at hread
      · obtain rfl := Except.ok.inj hread
        obtain ⟨as, hassigned, hgiven⟩ := assigned_of_parse hparse rfl
        refine ⟨as, hassigned, fun k hk => ?_⟩
        have htable : k.Tabled (Flag.known versioned) := fun f hf => Flag.serves_or_leaves hk hf
        obtain ⟨f, hf, hserves⟩ := Flag.serves_all k hk
        have hknown : f ∈ Flag.known versioned :=
          List.mem_append_left _ (List.mem_append_left _ hf)
        rw [hgiven k htable, given_fromEnvironment htable ⟨f, hknown, hserves⟩ henv,
          Settings.given_empty k hk, Option.or_none]

end CommandLine

/-! ### The settings -/

namespace Settings

/-- Settings with their paths anchored, if they can be used. -/
def accepted (s : Settings) (d : Disk) : Except Failure Settings :=
  match s.anchored d with
  | .error f => .error f
  | .ok s =>
    match s.check with
    | some defect => .error (.plain defect.message)
    | none => .ok s

theorem ofGiven_eq_accepted {d : Disk} {g : Given} {positional : List Text} {f : FileSettings}
    (hone : positional.length ≤ 1) (hfile : fileOf d g = .ok f) :
    ofGiven d g positional = (choose g f positional).accepted d := by
  unfold ofGiven
  rw [if_neg (by omega), hfile]
  rfl

/-- The working directory is all of the disk that matters. -/
theorem accepted_congr (s : Settings) {d d' : Disk} (h : d.workingDir = d'.workingDir) :
    s.accepted d = s.accepted d' := by
  have habsolute : ∀ p, d.absolute p = d'.absolute p := by
    intro p
    unfold Disk.absolute
    rw [h]
  unfold accepted anchored
  rw [habsolute]

/-- **Precedence.** For all flags that were given, and at most one positional argument:

    - each setting that has a flag is what was given, else what the file says unless it is empty,
      else the default; but the settings of the build are empty if the build is skipped, which is
      picked by the same rule. The harness ends after one run if the interval picked is zero;
    - these settings are then anchored and checked;
    - two files that agree in all keys but those whose flags were given lead to the same settings,
      or the same failure;
    - what counts as given is the value of the flag's last argument, else of its environment
      variable, and every key has its flag, with its default. -/
theorem picked_by_precedence (g : Given) (positional : List Text) (hone : positional.length ≤ 1) :
    (∀ f,
      (∀ k ∈ keys, k.get (choose g f positional) = k.picked g f) ∧
      (∀ k ∈ buildKeys, k.get (choose g f positional) =
        if skipsBuild g f then k.kind.empty else k.picked g f) ∧
      ((choose g f positional).runOnce = true ↔
        runIntervalKey.picked g f = Duration.zero) ∧
      (choose g f positional).pattern = positional.headD [] ∧
      (choose g f positional).launcherArgs = f.launcherArgs) ∧
    (∀ d f, fileOf d g = .ok f →
      ofGiven d g positional = (choose g f positional).accepted d) ∧
    (∀ d d' f f', fileOf d g = .ok f → fileOf d' g = .ok f' → d.workingDir = d'.workingDir →
      (∀ k ∈ allKeys, (k.given g).isSome ∨ k.fromFile f = k.fromFile f') →
      f.launcherArgs = f'.launcherArgs → ofGiven d g positional = ofGiven d' g positional) ∧
    (∀ versioned env args, CommandLine.request versioned env args = .ok (.run g positional) →
      ∃ as, CommandLine.Assigned (Flag.known versioned) args as positional ∧
        ∀ k ∈ allKeys, k.given g = (k.lastOf as).or (k.fromEnvironment env)) ∧
    ∀ k ∈ allKeys, ∃ f ∈ Flag.all, f.Serves k := by
  refine ⟨?_, ?_, ?_, ?_, Flag.serves_all⟩
  · intro f
    exact ⟨choose_keys g f positional, choose_buildKeys g f positional,
      runOnce_choose g f positional, rfl, rfl⟩
  · intro d f hfile
    exact ofGiven_eq_accepted hone hfile
  · intro d d' f f' hfile hfile' hdir hkeys hargs
    rw [ofGiven_eq_accepted hone hfile, ofGiven_eq_accepted hone hfile',
      choose_congr g positional hkeys hargs, accepted_congr _ hdir]
  · intro versioned env args hrequest
    exact CommandLine.given_of_request hrequest

end Settings

namespace Sample

/-- Variables, of which an argument overrules one; the last one is empty. -/
def variablesSet : Environment :=
  [("PROGTEST_LINKER", "ld"), ("PROGTEST_TIMEOUT", "5s"), ("PROGTEST_CONCURRENCY", "")]

/-- Arguments that give a flag twice, and an empty and a false value. -/
def argumentsGiven : List Text :=
  ["-config", "/c", "--linker=a", "-linker", "cc  -g", "-suffix=", "-skip-build=0", "p"]

/-- What they give. -/
def overruling : Given where
  config := some "/c"
  linker := some "cc  -g"
  suffix := some []
  skipBuild := some false
  timeout := some (Duration.ofSeconds 5)

/-- A disk with a settings file. -/
def configured (text : Text) : Disk :=
  workplace.put [("c" : Text)] (.file text 0o644 ⟨0, 0⟩)

/-- Files that differ where flags were given. -/
def oneFile : FileSettings where
  concurrency := 4
  linker := ["ld", "-x"]
  skipBuild := true

def otherFile : FileSettings where
  concurrency := 4
  suffix := ".x"

theorem picked_by_precedence_overruling :
    CommandLine.request true variablesSet argumentsGiven = .ok (.run overruling [("p" : Text)]) ∧
    Settings.fileOf (configured "concurrency: 4\nlinker: [ld, -x]\nbuild:\n  skip: true\n")
      overruling = .ok oneFile ∧
    Settings.fileOf (configured "concurrency: 4\nsuffix: .x\n") overruling = .ok otherFile ∧
    (Settings.choose overruling oneFile [("p" : Text)]).buildCommand =
      [("./gradlew" : Text), ("build" : Text)] ∧
    (Settings.choose overruling oneFile [("p" : Text)]).runOnce = true ∧
    Settings.ofGiven (configured "concurrency: 4\nlinker: [ld, -x]\nbuild:\n  skip: true\n")
        overruling [("p" : Text)] =
      Settings.ofGiven (configured "concurrency: 4\nsuffix: .x\n") overruling [("p" : Text)] := by
  have hone : Settings.fileOf (configured "concurrency: 4\nlinker: [ld, -x]\nbuild:\n  skip: true\n")
      overruling = .ok oneFile := toOption_eq_some_iff.mp (by decide +kernel)
  have hother : Settings.fileOf (configured "concurrency: 4\nsuffix: .x\n") overruling =
      .ok otherFile := toOption_eq_some_iff.mp (by decide +kernel)
  obtain ⟨hrule, _, htwo, _⟩ :=
    Settings.picked_by_precedence overruling [("p" : Text)] (by decide)
  obtain ⟨_, hbuild, honce, _⟩ := hrule oneFile
  have hcommand := hbuild Settings.buildKeys[0] (by simp [Settings.buildKeys])
  refine ⟨rfl, hone, hother, hcommand.trans rfl, honce.mpr rfl,
    htwo _ _ oneFile otherFile hone hother rfl ?_ rfl⟩
  decide +kernel

end Sample

end Gauntlet
