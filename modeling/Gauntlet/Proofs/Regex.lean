import Gauntlet.Proofs.Glyphs
import Gauntlet.Text.Escape
import Mathlib.Data.List.Basic

/-! # Regular expressions and the deletion of their matches

  An expression matches a text from its first glyph on in several ways. `Regex.rests` lists what
  each of them leaves of the text, in the order in which a backtracking search comes across them:
  the left alternative first, and one more repetition before none. The match is the first of
  them (`Regex.first`). `Regex.strike` goes through a text from left to right and deletes every
  match that takes something; matches do not overlap, and what is not deleted stays as it is.

  No match goes on across a glyph that the expression does not mention. What stands before such a
  glyph is matched as if the text ended there (`rests_barrier`), so that it can be struck on its
  own (`strike_barrier`).
-/

namespace Gauntlet.Text

/-- Regular expressions over glyphs. -/
inductive Regex where
  /-- One character within one of the ranges. -/
  | one (ranges : List (Char × Char))
  | seq (a b : Regex)
  | alt (a b : Regex)
  /-- Repetitions, as many as there can be up to a limit, or without a limit. -/
  | upTo (limit : Option Nat) (a : Regex)
  deriving DecidableEq, Repr

namespace Regex

/-- A glyph is a character within one of the ranges; a stray byte never is. -/
def covers (ranges : List (Char × Char)) : Glyph → Bool
  | .scalar c => ranges.any fun r => r.1 ≤ c && c ≤ r.2
  | .stray _ => false

/-- What is left after at most `n` repetitions of a match, each of which takes something. -/
def repeated (rests : List Glyph → List (List Glyph)) : (n : Nat) → List Glyph → List (List Glyph)
  | 0, gs => [gs]
  | n + 1, gs =>
    ((rests gs).filter fun r => r.length < gs.length).flatMap (repeated rests n) ++ [gs]

/-- What is left after each match from the first glyph on, the preferred one first. -/
def rests : Regex → List Glyph → List (List Glyph)
  | one _, [] => []
  | one ranges, g :: gs => if covers ranges g then [gs] else []
  | seq a b, gs => (a.rests gs).flatMap b.rests
  | alt a b, gs => a.rests gs ++ b.rests gs
  -- There cannot be more repetitions than glyphs.
  | upTo limit a, gs => repeated a.rests (limit.getD gs.length) gs

/-- What is left after the match from the first glyph on. -/
def first (e : Regex) (gs : List Glyph) : Option (List Glyph) := (e.rests gs).head?

/-- The glyphs that stay when every match, from left to right, is deleted. -/
def strike (e : Regex) : List Glyph → List Glyph
  | [] => []
  | g :: gs =>
    match e.first (g :: gs) with
    | some rest => if rest.length ≤ gs.length then e.strike rest else g :: e.strike gs
    | none => g :: e.strike gs
termination_by gs => gs.length

/-- The expression does not mention a glyph. -/
def Avoids (x : Glyph) : Regex → Prop
  | one ranges => covers ranges x = false
  | seq a b => a.Avoids x ∧ b.Avoids x
  | alt a b => a.Avoids x ∧ b.Avoids x
  | upTo _ a => a.Avoids x

instance decidableAvoids (x : Glyph) : (e : Regex) → Decidable (e.Avoids x)
  | one ranges => inferInstanceAs (Decidable (covers ranges x = false))
  | seq a b => @instDecidableAnd _ _ (decidableAvoids x a) (decidableAvoids x b)
  | alt a b => @instDecidableAnd _ _ (decidableAvoids x a) (decidableAvoids x b)
  | upTo _ a => decidableAvoids x a

/-! ### Repetitions -/

section Repeated

variable {f : List Glyph → List (List Glyph)}

/-- A limit that is not below the number of glyphs is none. -/
theorem repeated_stable {n m : Nat} {gs : List Glyph} (hn : gs.length ≤ n) (hm : gs.length ≤ m) :
    repeated f n gs = repeated f m gs := by
  induction n generalizing m gs with
  | zero =>
    obtain rfl : gs = [] := by simpa using hn
    cases m <;> simp [repeated]
  | succ n ih =>
    cases m with
    | zero =>
      obtain rfl : gs = [] := by simpa using hm
      simp [repeated]
    | succ m =>
      have hstep : ∀ r ∈ (f gs).filter (fun r => r.length < gs.length),
          repeated f n r = repeated f m r := by
        intro r hr
        have hshort : r.length < gs.length := by simpa using (List.mem_filter.mp hr).2
        exact ih (by omega) (by omega)
      show _ ++ [gs] = _ ++ [gs]
      rw [List.flatMap_congr hstep]

/-- What `f` leaves in front of `more`, repetitions of `f` leave too. -/
theorem repeated_append {more : List Glyph}
    (hf : ∀ gs, f (gs ++ more) = (f gs).map (· ++ more)) (n : Nat) (gs : List Glyph) :
    repeated f n (gs ++ more) = (repeated f n gs).map (· ++ more) := by
  induction n generalizing gs with
  | zero => rfl
  | succ n ih =>
    have hshort : (fun r : List Glyph => decide (r.length < (gs ++ more).length)) ∘ (· ++ more) =
        fun r => decide (r.length < gs.length) := by
      funext r
      simp
    rw [repeated, repeated, hf, List.filter_map, hshort, List.flatMap_map, List.map_append,
      List.map_flatMap]
    simp only [ih, List.map_singleton]

theorem suffix_of_mem_repeated (hf : ∀ gs, ∀ r ∈ f gs, r <:+ gs) {n : Nat} {gs r : List Glyph}
    (h : r ∈ repeated f n gs) : r <:+ gs := by
  induction n generalizing gs with
  | zero =>
    obtain rfl : r = gs := by simpa [repeated] using h
    exact List.suffix_rfl
  | succ n ih =>
    rw [repeated, List.mem_append, List.mem_singleton] at h
    rcases h with h | rfl
    · obtain ⟨q, hq, hr⟩ := List.mem_flatMap.mp h
      exact (ih hr).trans (hf gs q (List.mem_filter.mp hq).1)
    · exact List.suffix_rfl

end Repeated

/-! ### Matches -/

/-- A match takes glyphs from the front. -/
theorem suffix_of_mem_rests (e : Regex) {gs r : List Glyph} (h : r ∈ e.rests gs) : r <:+ gs := by
  induction e generalizing gs r with
  | one ranges =>
    cases gs with
    | nil => simp [rests] at h
    | cons g gs =>
      rw [rests] at h
      split at h
      · obtain rfl := List.mem_singleton.mp h
        exact List.suffix_cons g r
      · simp at h
  | seq a b iha ihb =>
    obtain ⟨q, hq, hr⟩ := List.mem_flatMap.mp h
    exact (ihb hr).trans (iha hq)
  | alt a b iha ihb =>
    rcases List.mem_append.mp h with h | h
    · exact iha h
    · exact ihb h
  | upTo limit a ih => exact suffix_of_mem_repeated (fun gs r => ih) h

theorem suffix_of_first {e : Regex} {gs r : List Glyph} (h : e.first gs = some r) : r <:+ gs :=
  e.suffix_of_mem_rests (List.mem_of_mem_head? h)

/-- What stands before a glyph that the expression does not mention is matched as if the text
    ended there. -/
theorem rests_barrier {e : Regex} {x : Glyph} (h : e.Avoids x) (gs more : List Glyph) :
    e.rests (gs ++ x :: more) = (e.rests gs).map (· ++ x :: more) := by
  induction e generalizing gs with
  | one ranges =>
    cases gs with
    | nil =>
      have hx : covers ranges x = false := h
      simp [rests, hx]
    | cons g gs =>
      rw [List.cons_append, rests, rests]
      split <;> rfl
  | seq a b iha ihb =>
    rw [rests, rests, iha h.1, List.flatMap_map, List.map_flatMap]
    simp only [ihb h.2]
  | alt a b iha ihb => rw [rests, rests, iha h.1, ihb h.2, List.map_append]
  | upTo limit a ih =>
    rw [rests, rests, repeated_append (ih h)]
    cases limit with
    | some n => rfl
    | none =>
      have hmore : gs.length ≤ (gs ++ x :: more).length := by simp
      exact congrArg _ (repeated_stable hmore (Nat.le_refl _))

theorem first_barrier {e : Regex} {x : Glyph} (h : e.Avoids x) (gs more : List Glyph) :
    e.first (gs ++ x :: more) = (e.first gs).map (· ++ x :: more) := by
  rw [first, rests_barrier h, List.head?_map, first]

/-! ### Deletion -/

theorem strike_cons (e : Regex) (g : Glyph) (gs : List Glyph) :
    e.strike (g :: gs) = match e.first (g :: gs) with
      | some rest => if rest.length ≤ gs.length then e.strike rest else g :: e.strike gs
      | none => g :: e.strike gs := by
  rw [strike]

/-- What stands before and after a glyph that the expression does not mention can be struck on
    its own. -/
theorem strike_barrier {e : Regex} {x : Glyph} (h : e.Avoids x) (gs more : List Glyph) :
    e.strike (gs ++ x :: more) = e.strike gs ++ x :: e.strike more := by
  fun_induction strike e gs with
  | case1 =>
    -- A match before the glyph takes nothing, so the glyph stays.
    have hfirst := first_barrier h [] more
    rw [List.nil_append] at hfirst ⊢
    rw [strike_cons, hfirst]
    cases he : e.first [] with
    | none => rfl
    | some rest =>
      have hlong : ¬ (rest ++ x :: more).length ≤ more.length := by
        rw [List.length_append, List.length_cons]
        omega
      simp only [Option.map_some, if_neg hlong]
      rfl
  | case2 g gs rest hfirst hshort ih =>
    rw [List.cons_append, strike_cons, ← List.cons_append, first_barrier h, hfirst]
    simpa [hshort] using ih
  | case3 g gs rest hfirst hlong ih =>
    rw [List.cons_append, strike_cons, ← List.cons_append, first_barrier h, hfirst]
    simpa [hlong] using ih
  | case4 g gs hfirst ih =>
    rw [List.cons_append, strike_cons, ← List.cons_append, first_barrier h, hfirst]
    exact congrArg _ ih

end Regex

end Gauntlet.Text
