import Gauntlet.Metrics
import Mathlib.Data.Nat.Init

/-! # Labels of errors

  A label keeps the letters and the spaces of a message, with underscores for the spaces. Where
  nothing is left of what stood between spaces, they make up one run. `Underscored width` tells
  what becomes of the runs: `width n` underscores for `n` spaces.

  Pairs of underscores are made one in a single pass from the left, so that half of a run is
  left, rounded up (`underscored_errorLabel`). One or two spaces are one underscore, and three
  or more still have underscores side by side (`Underscored.pair_iff`, `label_can_keep_pair`).
-/

namespace Gauntlet

/-! ### Runs of a byte -/

namespace Text

variable {b c : UInt8} {k : Nat} {t : Text}

theorem repeated_succ (b : UInt8) (n : Nat) : repeated b (n + 1) = b :: repeated b n := rfl

theorem repeated_append_cons (b : UInt8) (n : Nat) (t : Text) :
    repeated b n ++ b :: t = repeated b (n + 1) ++ t := by
  simp [repeated, List.replicate_succ']

theorem repeated_infix_cons_iff (hc : c ≠ b) :
    repeated b (k + 1) <:+: c :: t ↔ repeated b (k + 1) <:+: t := by
  have hfront : ¬ repeated b (k + 1) <+: c :: t := by
    simp [repeated_succ, List.cons_prefix_cons, hc.symm]
  simp [List.infix_cons_iff, hfront]

theorem repeated_prefix_iff (hend : t.head? ≠ some b) (n : Nat) :
    repeated b k <+: repeated b n ++ t ↔ k ≤ n := by
  induction k generalizing n with
  | zero => simp [repeated]
  | succ k ih =>
    cases n with
    | succ n => simpa [repeated_succ, List.cons_prefix_cons] using ih n
    | zero =>
      refine iff_of_false ?_ (by omega)
      rintro ⟨rest, rfl⟩
      exact hend rfl

/-- Where a text starts with a run, a shorter run is part of it or comes after it. -/
theorem repeated_infix_iff (hend : t.head? ≠ some b) (n : Nat) :
    repeated b k <:+: repeated b n ++ t ↔ k ≤ n ∨ repeated b k <:+: t := by
  induction n with
  | zero =>
    refine ⟨Or.inr, ?_⟩
    rintro (hk | hk)
    · obtain rfl : k = 0 := by omega
      exact List.nil_infix
    · exact hk
  | succ n ih =>
    have hfront := repeated_prefix_iff (k := k) hend (n + 1)
    have hk : k ≤ n + 1 ∨ k ≤ n ↔ k ≤ n + 1 := by omega
    rw [repeated_succ, List.cons_append] at hfront ⊢
    rw [List.infix_cons_iff, hfront, ih, ← or_assoc, hk]

theorem ne_of_isLetter (hb : isLetter b) (hc : isLetter c = false) : b ≠ c := by
  rintro rfl
  simp [hb] at hc

end Text

namespace Metrics

/-! ### What becomes of the spaces -/

/-- The letters and the spaces of a text, without everything else. -/
def lettersAndSpaces (t : Text) : Text := t.filter fun b => Text.isLetter b || b = 32

theorem mem_lettersAndSpaces {b : UInt8} {t : Text} :
    b ∈ lettersAndSpaces t ↔ b ∈ t ∧ (Text.isLetter b ∨ b = 32) := by
  simp [lettersAndSpaces]

/-- The form `[a-zA-Z_][a-zA-Z0-9_]*` of a name. -/
def IsName : Text → Prop
  | [] => False
  | b :: t => (Text.isLetter b ∨ b = 95) ∧ ∀ c ∈ t, Text.isLetter c ∨ Text.isDigit c ∨ c = 95

/-- The first text has letters and spaces only, and the second one is the same with `width n`
    underscores for each maximal run of `n` spaces. -/
inductive Underscored (width : Nat → Nat) : Text → Text → Prop where
  | nil : Underscored width [] []
  | letter {b : UInt8} {t u : Text} (hb : Text.isLetter b) (h : Underscored width t u) :
      Underscored width (b :: t) (b :: u)
  | run {n : Nat} {t u : Text} (hn : 0 < n) (hend : t.head? ≠ some 32)
      (h : Underscored width t u) :
      Underscored width (Text.spaces n ++ t) (Text.repeated 95 (width n) ++ u)

namespace Underscored

variable {width : Nat → Nat} {t u : Text}

theorem mem (h : Underscored width t u) {c : UInt8} (hc : c ∈ u) : Text.isLetter c ∨ c = 95 := by
  induction h with
  | nil => simp at hc
  | letter hb _ ih => grind
  | run hn hend _ ih => grind [Text.repeated]

theorem letters_eq (h : Underscored width t u) :
    u.filter Text.isLetter = t.filter Text.isLetter := by
  have hspace : Text.isLetter 32 = false := rfl
  have hunderscore : Text.isLetter 95 = false := rfl
  induction h with
  | nil => rfl
  | letter hb _ ih => simp [hb, ih]
  | run hn hend _ ih => simp [Text.spaces, Text.repeated, hspace, hunderscore, ih]

theorem eq_nil_iff (h : Underscored width t u) (hwidth : ∀ n, 0 < n → 0 < width n) :
    u = [] ↔ t = [] := by
  cases h with
  | nil => simp
  | letter hb _ => simp
  | @run n _ _ hn _ _ =>
    have hpos := hwidth n hn
    simp [Text.spaces, Text.repeated, Nat.ne_of_gt hn, Nat.ne_of_gt hpos]

/-- An underscore at the front comes from a space. -/
theorem head_ne (h : Underscored width t u) (hend : t.head? ≠ some 32) : u.head? ≠ some 95 := by
  cases h with
  | nil => simp
  | letter hb _ => simpa using Text.ne_of_isLetter hb rfl
  | run hn _ _ =>
    obtain ⟨n, rfl⟩ := Nat.exists_eq_add_one.mpr hn
    exact absurd rfl hend

/-- More spaces may come in front of a text that starts with none. -/
theorem lead (h : Underscored width t u) (hzero : width 0 = 0) (hend : t.head? ≠ some 32)
    (n : Nat) : Underscored width (Text.spaces n ++ t) (Text.repeated 95 (width n) ++ u) := by
  cases n with
  | zero =>
    rw [hzero]
    exact h
  | succ n => exact .run (Nat.succ_pos n) hend h

/-- Where every run is one underscore, no two of them are side by side. -/
theorem no_pair (h : Underscored (fun _ => 1) t u) : ¬ Text.repeated 95 2 <:+: u := by
  induction h with
  | nil => simp [Text.repeated]
  | letter hb _ ih => rwa [Text.repeated_infix_cons_iff (Text.ne_of_isLetter hb rfl)]
  | run hn hend hrest ih =>
    rw [Text.repeated_infix_iff (hrest.head_ne hend)]
    simpa using ih

/-- Where half of every run is left, two underscores side by side come from three spaces. -/
theorem pair_iff (h : Underscored (fun n => (n + 1) / 2) t u) :
    Text.repeated 95 2 <:+: u ↔ Text.spaces 3 <:+: t := by
  induction h with
  | nil => simp [Text.repeated, Text.spaces]
  | letter hb _ ih =>
    rw [Text.spaces, Text.repeated_infix_cons_iff (Text.ne_of_isLetter hb rfl),
      Text.repeated_infix_cons_iff (Text.ne_of_isLetter hb rfl)]
    exact ih
  | @run n _ _ hn hend hrest ih =>
    -- Neither run goes on in what follows it, so that two or three in a row are within one.
    have hlong : 2 ≤ (n + 1) / 2 ↔ 3 ≤ n := by omega
    rw [Text.repeated_infix_iff (hrest.head_ne hend), hlong, ih]
    exact (Text.repeated_infix_iff hend n).symm

/-- Half of a run is one underscore, if there are no three spaces. -/
theorem single (h : Underscored (fun n => (n + 1) / 2) t u) (hshort : ¬ Text.spaces 3 <:+: t) :
    Underscored (fun _ => 1) t u := by
  induction h with
  | nil => exact .nil
  | letter hb _ ih =>
    rw [Text.spaces, Text.repeated_infix_cons_iff (Text.ne_of_isLetter hb rfl)] at hshort
    exact .letter hb (ih hshort)
  | @run n _ _ hn hend _ ih =>
    rw [Text.spaces, Text.spaces, Text.repeated_infix_iff hend, not_or] at hshort
    have hhalf : (n + 1) / 2 = 1 := by omega
    rw [hhalf]
    exact .run hn hend (ih hshort.2)

/-- What the runs of a text become is a name, unless the text is empty. -/
theorem isName_iff (h : Underscored width t u) (hwidth : ∀ n, 0 < n → 0 < width n) :
    IsName u ↔ t ≠ [] := by
  rw [Ne, ← h.eq_nil_iff hwidth]
  cases u with
  | nil => simp [IsName]
  | cons b u =>
    refine iff_of_true ⟨h.mem List.mem_cons_self, ?_⟩ (List.cons_ne_nil b u)
    intro c hc
    exact (h.mem (List.mem_cons_of_mem b hc)).imp_right Or.inr

end Underscored

/-! ### The label -/

theorem halvedUnderscores_cons {b : UInt8} {t : Text} (h : b = 95 → t.head? ≠ some 95) :
    halvedUnderscores (b :: t) = b :: halvedUnderscores t := by
  refine halvedUnderscores.eq_2 b t ?_
  rintro rest hb rfl
  exact h hb rfl

/-- One pass over a run leaves half of it, rounded up. -/
theorem halvedUnderscores_repeated {t : Text} (hend : t.head? ≠ some 95) (n : Nat) :
    halvedUnderscores (Text.repeated 95 n ++ t) =
      Text.repeated 95 ((n + 1) / 2) ++ halvedUnderscores t := by
  induction n using Nat.twoStepInduction with
  | zero => rfl
  | one => exact halvedUnderscores_cons fun _ => hend
  | more n ih _ =>
    -- The pass takes a pair and begins anew after it.
    have hhalf : (n + 2 + 1) / 2 = (n + 1) / 2 + 1 := by omega
    rw [hhalf]
    exact congrArg (95 :: ·) ih

theorem underscored_halved {t : Text} (h : ∀ b ∈ t, Text.isLetter b ∨ b = 32) (n : Nat) :
    Underscored (fun n => (n + 1) / 2) (Text.spaces n ++ t) (halvedUnderscores
      (Text.repeated 95 n ++ t.map fun b => if b = 32 then 95 else b)) := by
  -- The spaces in front of `t` are the start of a run that may go on in it.
  induction t generalizing n with
  | nil =>
    rw [List.map_nil, halvedUnderscores_repeated (by simp)]
    exact Underscored.nil.lead rfl (by simp) n
  | cons b t ih =>
    obtain ⟨hb, ht⟩ := List.forall_mem_cons.mp h
    rcases hb with hb | rfl
    · have hspace : b ≠ 32 := Text.ne_of_isLetter hb rfl
      have hunderscore : b ≠ 95 := Text.ne_of_isLetter hb rfl
      have hrest : Underscored _ (b :: t) (b :: _) := .letter hb (ih ht 0)
      rw [List.map_cons, if_neg hspace, halvedUnderscores_repeated (by simp [hunderscore]),
        halvedUnderscores_cons (absurd · hunderscore)]
      exact hrest.lead rfl (by simp [hspace]) n
    · simpa [Text.spaces, Text.repeated_append_cons] using ih ht (n + 1)

theorem underscored_errorLabel (f : Failure) :
    Underscored (fun n => (n + 1) / 2) (lettersAndSpaces f.message) (errorLabel (some f)) :=
  underscored_halved (fun _ hb => (mem_lettersAndSpaces.mp hb).2) 0

/-- The label of an error is a name exactly if its message has a letter or a space. Its letters
    are those of the message, and each run of spaces, among what is kept of the message, is half
    as many underscores, rounded up. So each run is one underscore, and no two underscores are
    side by side, exactly if there are never three spaces. -/
theorem errorLabel_halves_runs (f : Failure) :
    (IsName (errorLabel (some f)) ↔ ∃ b ∈ f.message, Text.isLetter b ∨ b = 32) ∧
    (errorLabel (some f)).filter Text.isLetter = f.message.filter Text.isLetter ∧
    Underscored (fun n => (n + 1) / 2) (lettersAndSpaces f.message) (errorLabel (some f)) ∧
    (Underscored (fun _ => 1) (lettersAndSpaces f.message) (errorLabel (some f)) ↔
      ¬ Text.spaces 3 <:+: lettersAndSpaces f.message) ∧
    (Text.repeated 95 2 <:+: errorLabel (some f) ↔
      Text.spaces 3 <:+: lettersAndSpaces f.message) := by
  have hlabel := underscored_errorLabel f
  refine ⟨?_, ?_, hlabel, ⟨?_, hlabel.single⟩, hlabel.pair_iff⟩
  · rw [hlabel.isName_iff fun n hn => by omega, Ne, List.eq_nil_iff_forall_not_mem]
    simp only [mem_lettersAndSpaces, Classical.not_forall_not]
  · rw [hlabel.letters_eq, lettersAndSpaces, List.filter_filter]
    refine List.filter_congr fun b _ => ?_
    cases Text.isLetter b <;> rfl
  · intro hone
    rw [← hlabel.pair_iff]
    exact hone.no_pair

end Metrics

namespace Sample

open Metrics

/-- Three spaces are left as two underscores. -/
theorem label_can_keep_pair :
    (∃ b ∈ (Failure.plain "test   error").message, Text.isLetter b ∨ b = 32) ∧
    errorLabel (some (.plain "test   error")) = "test__error" ∧
    ¬ Underscored (fun _ => 1) (lettersAndSpaces (Failure.plain "test   error").message)
      (errorLabel (some (.plain "test   error"))) ∧
    Text.repeated 95 2 <:+: errorLabel (some (.plain "test   error")) := by
  have hlabel : errorLabel (some (.plain "test   error")) = "test__error" := by decide
  have hpair : Text.repeated 95 2 <:+: errorLabel (some (.plain "test   error")) := by
    rw [hlabel]
    exact ⟨"test", "error", by decide⟩
  exact ⟨⟨32, by decide, Or.inr rfl⟩, hlabel, fun hone => hone.no_pair hpair, hpair⟩

end Sample

end Gauntlet
