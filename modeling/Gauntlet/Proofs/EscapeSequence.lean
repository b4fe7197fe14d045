import Gauntlet.Proofs.Regex

/-! # Escape sequences as a regular expression

  The escape sequences of a terminal are the matches of the expression

      [\x1B\x9B][[\]()#;?]*(?:
          (?:(?:[a-zA-Z\d]*(?:;[a-zA-Z\d]*)*)?\x07) |
          (?:(?:\d{1,4}(?:;\d{0,4})*)?[\dA-PRZcf-ntqry=><~]))

  `Escape.sequence` is this expression. The text without escape sequences is the text with every
  match deleted (`withoutEscapes_eq_strike`). A newline is not mentioned, so the lines of a text
  lose their escape sequences one by one (`withoutEscapes_newline`).
-/

namespace Gauntlet.Text

open CaseLog (newline)

namespace Escape

/-! ### The expression -/

/-- The range of a single character. -/
def only (c : Char) : Char × Char := (c, c)

/-- `[\x1B\x9B]` -/
def introducers : List (Char × Char) := ['\x1b', '\u009b'].map only

/-- `[[\]()#;?]` -/
def openings : List (Char × Char) := "[]()#;?".toList.map only

def semicolon : List (Char × Char) := [';'].map only

/-- `\x07` -/
def bell : List (Char × Char) := ['\x07'].map only

/-- `[a-zA-Z\d]` -/
def letters : List (Char × Char) := [('a', 'z'), ('A', 'Z'), ('0', '9')]

/-- `\d` -/
def digits : List (Char × Char) := [('0', '9')]

/-- `[\dA-PRZcf-ntqry=><~]` -/
def finals : List (Char × Char) :=
  [('0', '9'), ('A', 'P'), ('f', 'n')] ++ "RZctqry=><~".toList.map only

/-- `[a-zA-Z\d]*(?:;[a-zA-Z\d]*)*` -/
def payload : Regex :=
  .seq (.upTo none (.one letters)) (.upTo none (.seq (.one semicolon) (.upTo none (.one letters))))

/-- `\d{0,n}(?:;\d{0,4})*` -/
def parameters (n : Nat) : Regex :=
  .seq (.upTo (some n) (.one digits))
    (.upTo none (.seq (.one semicolon) (.upTo (some 4) (.one digits))))

/-- The expression for an escape sequence; `\d{1,4}` is a digit and up to three more. -/
def sequence : Regex :=
  .seq (.one introducers) (.seq (.upTo none (.one openings)) (.alt
    (.seq (.upTo (some 1) payload) (.one bell))
    (.seq (.upTo (some 1) (.seq (.one digits) (parameters 3))) (.one finals))))

/-! ### Classes of characters -/

theorem covers_only (cs : List Char) : Regex.covers (cs.map only) = holds cs.contains := by
  funext g
  cases g with
  | stray b => rfl
  | scalar c =>
    have hsame : ∀ x : Char, ((only x).1 ≤ c && c ≤ (only x).2) = (c == x) := by
      intro x
      rw [Bool.eq_iff_iff, Bool.and_eq_true, beq_iff_eq]
      constructor
      · intro h
        exact Char.le_antisymm (of_decide_eq_true h.2) (of_decide_eq_true h.1)
      · rintro rfl
        exact ⟨decide_eq_true (Char.le_refl c), decide_eq_true (Char.le_refl c)⟩
    simp only [Regex.covers, holds, List.any_map, Function.comp_def, hsame,
      List.contains_eq_any_beq]

theorem covers_introducers : Regex.covers introducers = isIntroducer := by
  rw [introducers, covers_only]
  funext g
  cases g with
  | stray b => rfl
  | scalar c => simp [holds, isIntroducer]

theorem covers_openings : Regex.covers openings = isOpening := covers_only _

theorem covers_semicolon (g : Glyph) : Regex.covers semicolon g = decide (g = .scalar ';') := by
  rw [semicolon, covers_only]
  cases g with
  | stray b => rfl
  | scalar c => simp [holds]

theorem covers_bell (g : Glyph) : Regex.covers bell g = decide (g = .scalar '\x07') := by
  rw [bell, covers_only]
  cases g with
  | stray b => rfl
  | scalar c => simp [holds]

theorem covers_digits : Regex.covers digits = isDigit := by
  funext g
  cases g with
  | stray b => rfl
  | scalar c => exact Bool.or_false _

theorem covers_finals : Regex.covers finals = isFinal := by
  funext g
  cases g with
  | stray b => rfl
  | scalar c =>
    have hsingle := congrFun (covers_only "RZctqry=><~".toList) (.scalar c)
    unfold Regex.covers at hsingle ⊢
    dsimp only [finals] at hsingle ⊢
    rw [List.any_append, hsingle]
    show ((c.isDigit || (('A' ≤ c && c ≤ 'P') || (('f' ≤ c && c ≤ 'n') || false))) || _) =
      (((c.isDigit || ('A' ≤ c && c ≤ 'P')) || ('f' ≤ c && c ≤ 'n')) || _)
    rw [Bool.or_false, ← Bool.or_assoc]
    rfl

/-- The characters of a body closed by BEL. -/
theorem isPayload_eq (g : Glyph) :
    isPayload g = (Regex.covers letters g || Regex.covers semicolon g) := by
  rw [covers_semicolon]
  cases g with
  | stray b => rfl
  | scalar c =>
    have hupper : ('A' ≤ c && c ≤ 'Z') = c.isUpper := (Bool.decide_and _ _).symm
    have hletters : Regex.covers letters (.scalar c) = c.isAlphanum := by
      show (c.isLower || (('A' ≤ c && c ≤ 'Z') || (c.isDigit || false))) =
        ((c.isUpper || c.isLower) || c.isDigit)
      rw [hupper, Bool.or_false, ← Bool.or_assoc, Bool.or_comm c.isLower]
    rw [hletters]
    simp [isPayload, holds, BEq.beq]

end Escape

/-! ### Matches of its parts -/

namespace Regex

variable (ranges : List (Char × Char)) (b : Regex) (g : Glyph) (gs : List Glyph)

theorem first_seq (a b : Regex) (gs : List Glyph) :
    (seq a b).first gs = (a.rests gs).findSome? b.first := List.head?_flatMap

theorem first_alt (a b : Regex) (gs : List Glyph) :
    (alt a b).first gs = (a.first gs).or (b.first gs) := List.head?_append

theorem first_one : (one ranges).first (g :: gs) = if covers ranges g then some gs else none := by
  rw [first, rests]
  split <;> rfl

theorem rests_seq_one : (seq (one ranges) b).rests (g :: gs) =
    if covers ranges g then b.rests gs else [] := by
  rw [rests, rests]
  split <;> simp

/-- An expression that begins with one character takes something. -/
theorem filter_rests_seq_one : ((seq (one ranges) b).rests gs).filter
    (fun r => r.length < gs.length) = (seq (one ranges) b).rests gs := by
  rw [List.filter_eq_self]
  intro r hr
  cases gs with
  | nil => simp [rests] at hr
  | cons g gs =>
    rw [rests_seq_one] at hr
    split at hr
    · have hle : r.length ≤ gs.length := (b.suffix_of_mem_rests hr).length_le
      simp only [List.length_cons, decide_eq_true_eq]
      omega
    · simp at hr

theorem rests_optional (a : Regex) (gs : List Glyph) : (upTo (some 1) a).rests gs =
    ((a.rests gs).filter fun r => r.length < gs.length) ++ [gs] := by
  show List.flatMap (fun r => [r]) _ ++ [gs] = _
  rw [List.flatMap_singleton']

theorem rests_upTo_one (n : Nat) : (upTo (some (n + 1)) (one ranges)).rests (g :: gs) =
    (if covers ranges g then (upTo (some n) (one ranges)).rests gs else []) ++ [g :: gs] := by
  simp only [rests, Option.getD_some]
  rw [repeated]
  split <;> simp_all [rests]

theorem rests_many_one : (upTo none (one ranges)).rests (g :: gs) =
    (if covers ranges g then (upTo none (one ranges)).rests gs else []) ++ [g :: gs] :=
  rests_upTo_one ranges g gs gs.length

theorem rests_many_seq : (upTo none (seq (one ranges) b)).rests (g :: gs) =
    (if covers ranges g then (b.rests gs).flatMap (upTo none (seq (one ranges) b)).rests
      else []) ++ [g :: gs] := by
  show repeated (seq (one ranges) b).rests (gs.length + 1) (g :: gs) = _
  rw [repeated, filter_rests_seq_one, rests_seq_one]
  split
  · have hstable : ∀ r ∈ b.rests gs, repeated (seq (one ranges) b).rests gs.length r =
        (upTo none (seq (one ranges) b)).rests r := by
      intro r hr
      exact repeated_stable (b.suffix_of_mem_rests hr).length_le (Nat.le_refl _)
    rw [List.flatMap_congr hstable]
  · rfl

end Regex

namespace Escape

open Regex (rests_many_one rests_many_seq rests_upTo_one)

/-- The ways to match letters, digits and semicolons: one more, or none. -/
theorem rests_payload (g : Glyph) (gs : List Glyph) :
    payload.rests (g :: gs) = (if isPayload g then payload.rests gs else []) ++ [g :: gs] := by
  have hgroups := rests_many_seq semicolon (.upTo none (.one letters)) g gs
  rw [isPayload_eq, payload, Regex.rests, rests_many_one, List.flatMap_append,
    List.flatMap_singleton, hgroups]
  by_cases hsemicolon : g = .scalar ';'
  · subst hsemicolon
    rfl
  · have hnone : Regex.covers semicolon g = false := by simp [covers_semicolon, hsemicolon]
    by_cases hletter : Regex.covers letters g = true
    · simp [hnone, hletter, Regex.rests]
    · simp [hnone, hletter]

/-- The ways to match numeric parameters are the points at which they may stop. -/
theorem rests_parameters (n : Nat) (gs : List Glyph) : (parameters n).rests gs = stops n gs := by
  induction gs generalizing n with
  | nil => cases n <;> rfl
  | cons g gs ih =>
    have hgroups := rests_many_seq semicolon (.upTo (some 4) (.one digits)) g gs
    have hnext : ((Regex.upTo (some 4) (.one digits)).rests gs).flatMap (Regex.upTo none
        (.seq (.one semicolon) (.upTo (some 4) (.one digits)))).rests = stops 4 gs := ih 4
    rw [hnext, covers_semicolon] at hgroups
    rw [parameters, Regex.rests]
    by_cases hdigit : isDigit g = true
    · -- A digit is no semicolon, so only another digit can be taken.
      have hsemicolon : ¬ g = .scalar ';' := by
        rintro rfl
        simp [isDigit, holds] at hdigit
      cases n with
      | zero => simpa [Regex.rests, Regex.repeated, stops, hdigit, hsemicolon] using hgroups
      | succ n =>
        have hmore : ((Regex.upTo (some n) (.one digits)).rests gs).flatMap (Regex.upTo none
            (.seq (.one semicolon) (.upTo (some 4) (.one digits)))).rests = stops n gs := ih n
        rw [rests_upTo_one, covers_digits, if_pos hdigit, List.flatMap_append,
          List.flatMap_singleton, hmore, hgroups]
        simp [stops, hdigit, hsemicolon]
    · have hstop : (Regex.upTo (some n) (.one digits)).rests (g :: gs) = [g :: gs] := by
        cases n with
        | zero => rfl
        | succ n =>
          rw [rests_upTo_one, covers_digits, if_neg hdigit]
          rfl
      rw [hstop, List.flatMap_singleton, hgroups]
      by_cases hsemicolon : g = .scalar ';'
      · subst hsemicolon
        simp [stops, hdigit]
      · simp [stops, hdigit, hsemicolon]

/-! ### The bodies -/

/-- No way to match a body stops right before BEL, but for the longest one. -/
theorem findSome_payload (gs : List Glyph) :
    (payload.rests gs).findSome? (Regex.one bell).first = afterBell? gs := by
  induction gs with
  | nil => rfl
  | cons g gs ih =>
    have hlast : [g :: gs].findSome? (Regex.one bell).first =
        if g = .scalar '\x07' then some gs else none := by
      rw [List.findSome?_singleton, Regex.first_one, covers_bell]
      simp
    rw [rests_payload, List.findSome?_append, hlast, afterBell?]
    by_cases hpayload : isPayload g = true
    · have hbell : ¬ g = .scalar '\x07' := by
        rintro rfl
        revert hpayload
        decide
      rw [if_pos hpayload, ih, if_neg hbell, Option.or_none, List.dropWhile_cons_of_pos hpayload,
        afterBell?]
    · rw [if_neg hpayload, List.dropWhile_cons_of_neg hpayload]
      cases g with
      | stray b => rfl
      | scalar c =>
        have hc : c = '\x07' ↔ c.toNat = 7 := by
          rw [← Char.toNat_inj]
          rfl
        simp [hc]

theorem first_bell (gs : List Glyph) :
    (Regex.seq (.upTo (some 1) payload) (.one bell)).first gs = afterBell? gs := by
  -- Taking nothing is the last way to match the body anyhow.
  have hoptional : (Regex.upTo (some 1) payload).rests gs = payload.rests gs := by
    rw [Regex.rests_optional]
    cases gs with
    | nil => rfl
    | cons g gs =>
      have hshort : (if isPayload g then payload.rests gs else []).filter
          (fun r => r.length < (g :: gs).length) =
          if isPayload g then payload.rests gs else [] := by
        rw [List.filter_eq_self]
        intro r hr
        split at hr
        · have hle : r.length ≤ gs.length := (payload.suffix_of_mem_rests hr).length_le
          simp only [List.length_cons, decide_eq_true_eq]
          omega
        · simp at hr
      rw [rests_payload, List.filter_append, hshort]
      simp
  rw [Regex.first_seq, hoptional, findSome_payload]

theorem first_finals : (Regex.one finals).first = afterFinal? := by
  funext gs
  cases gs with
  | nil => rfl
  | cons g gs => rw [Regex.first_one, covers_finals, afterFinal?]

theorem first_final (gs : List Glyph) :
    (Regex.seq (.upTo (some 1) (.seq (.one digits) (parameters 3))) (.one finals)).first gs =
      afterParameters? gs := by
  rw [Regex.first_seq, Regex.rests_optional, Regex.filter_rests_seq_one, first_finals,
    List.findSome?_append]
  cases gs with
  | nil => rfl
  | cons g gs =>
    rw [Regex.rests_seq_one, covers_digits, rests_parameters, afterParameters?]
    by_cases hdigit : isDigit g = true
    · simp [hdigit]
    · simp [hdigit]

/-! ### The whole expression -/

/-- The two bodies, and opening characters before them. -/
theorem first_openings (gs : List Glyph) :
    (Regex.seq (.upTo none (.one openings)) (.alt
      (.seq (.upTo (some 1) payload) (.one bell))
      (.seq (.upTo (some 1) (.seq (.one digits) (parameters 3))) (.one finals)))).first gs =
        afterIntroducer? gs := by
  have hbody : (Regex.alt (.seq (.upTo (some 1) payload) (.one bell))
      (.seq (.upTo (some 1) (.seq (.one digits) (parameters 3))) (.one finals))).first =
        afterBody? := by
    funext gs
    rw [Regex.first_alt, first_bell, first_final, afterBody?]
    simp
  rw [Regex.first_seq, hbody]
  induction gs with
  | nil => rfl
  | cons g gs ih =>
    rw [rests_many_one, covers_openings, List.findSome?_append, List.findSome?_singleton,
      afterIntroducer?]
    split
    · rw [ih]
      simp
    · rfl

theorem first_sequence (g : Glyph) (gs : List Glyph) :
    sequence.first (g :: gs) = if isIntroducer g then afterIntroducer? gs else none := by
  rw [← first_openings, Regex.first, sequence, Regex.rests_seq_one, covers_introducers]
  split <;> rfl

theorem outside_eq_drop (k : Nat) (gs : List Glyph) : outside k gs = outside 0 (gs.drop k) := by
  induction k generalizing gs with
  | zero => rfl
  | succ k ih =>
    cases gs with
    | nil => rfl
    | cons g gs => exact ih gs

/-- The glyphs outside escape sequences are those that are not struck. -/
theorem outside_eq_strike (gs : List Glyph) : outside 0 gs = sequence.strike gs := by
  fun_induction Regex.strike sequence gs with
  | case1 => rfl
  | case2 g gs rest hfirst hshort ih =>
    have hsuffix : rest <:+ gs := by
      rcases List.suffix_cons_iff.mp (Regex.suffix_of_first hfirst) with rfl | hsuffix
      · rw [List.length_cons] at hshort
        omega
      · exact hsuffix
    rw [first_sequence] at hfirst
    split at hfirst
    · rename_i hintroducer
      rw [outside, if_pos hintroducer, hfirst]
      dsimp only
      rw [outside_eq_drop, ← List.suffix_iff_eq_drop.mp hsuffix, ih]
    · simp at hfirst
  | case3 g gs rest hfirst hlong ih =>
    -- A match begins with an introducer, so it takes something.
    have hmem : rest ∈ sequence.rests (g :: gs) := List.mem_of_mem_head? hfirst
    rw [sequence, ← Regex.filter_rests_seq_one] at hmem
    have hshort : rest.length < (g :: gs).length := by simpa using (List.mem_filter.mp hmem).2
    exact absurd (Nat.le_of_lt_succ hshort) hlong
  | case4 g gs hfirst ih =>
    rw [first_sequence] at hfirst
    rw [outside]
    split
    · rename_i hintroducer
      rw [if_pos hintroducer] at hfirst
      rw [hfirst]
      exact congrArg _ ih
    · exact congrArg _ ih

end Escape

/-- The text without its escape sequences is the text with every match of the expression
    deleted. -/
theorem withoutEscapes_eq_strike (t : Text) :
    withoutEscapes t = ofGlyphs (Escape.sequence.strike (glyphs t)) := by
  rw [withoutEscapes, Escape.outside_eq_strike]

/-- No escape sequence goes on across a newline. -/
theorem withoutEscapes_newline (s t : Text) :
    withoutEscapes (s ++ newline :: t) = withoutEscapes s ++ newline :: withoutEscapes t := by
  have hnewline : Escape.sequence.Avoids (.scalar '\n') := by decide
  rw [withoutEscapes_eq_strike, glyphs_newline, Regex.strike_barrier hnewline, ofGlyphs_append,
    withoutEscapes_eq_strike, withoutEscapes_eq_strike]
  rfl

end Gauntlet.Text
