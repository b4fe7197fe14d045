import Gauntlet.Duration
import Gauntlet.Instant
import Mathlib.Data.Nat.Digits.Defs

/-! # Numbers that can be read back

  A number in decimal is a run of digits, and its value is read off them, with or without
  zeros in front (`value_ofNat`, `value_padded`). Where a run is followed by something else, it
  is known where it ends (`append_inj_of_breaks`), so that a number in the middle of a text can
  be told from what follows.

  A fraction is written without the zeros at its end. They are known again from its width
  (`significant_inj`).
-/

namespace Gauntlet

namespace Text

/-! ### Runs of bytes -/

/-- The text does not start with a byte of a kind. -/
def Breaks (p : UInt8 → Bool) (t : Text) : Prop := ∀ b, t.head? = some b → p b = false

theorem breaks_nil (p : UInt8 → Bool) : Breaks p [] := fun _ hb => by simp at hb

theorem breaks_cons {p : UInt8 → Bool} {b : UInt8} (h : p b = false) (t : Text) :
    Breaks p (b :: t) := by
  intro a ha
  obtain rfl : b = a := Option.some.inj ha
  exact h

/-- A run of bytes of a kind ends where the text breaks. -/
theorem takeWhile_of_breaks {p : UInt8 → Bool} {a x : Text} (ha : ∀ b ∈ a, p b = true)
    (hx : Breaks p x) : (a ++ x).takeWhile p = a := by
  have hend : x.takeWhile p = [] := by
    cases x with
    | nil => rfl
    | cons b x => simp [hx b rfl]
  rw [List.takeWhile_append_of_pos ha, hend, List.append_nil]

theorem append_inj_of_breaks {p : UInt8 → Bool} {a a' x x' : Text} (ha : ∀ b ∈ a, p b = true)
    (ha' : ∀ b ∈ a', p b = true) (hx : Breaks p x) (hx' : Breaks p x') (h : a ++ x = a' ++ x') :
    a = a' ∧ x = x' := by
  have hrun : a = a' := by rw [← takeWhile_of_breaks ha hx, h, takeWhile_of_breaks ha' hx']
  subst hrun
  exact ⟨rfl, List.append_cancel_left h⟩

end Text

namespace Numeral

/-! ### Digits -/

/-- The characters of a number are the digits from `0` to `9`. -/
theorem toNat_of_mem_toDigits {n : Nat} {c : Char} (h : c ∈ Nat.toDigits 10 n) :
    48 ≤ c.toNat ∧ c.toNat ≤ 57 := by
  have hdigit := Nat.isDigit_of_mem_toDigits (by omega) (by omega) h
  simp only [Char.isDigit, Bool.and_eq_true, decide_eq_true_eq, UInt32.le_iff_toNat_le] at hdigit
  exact hdigit

theorem toNat_byte {c : Char} (h : c.toNat < 256) : (Text.byte c).toNat = c.toNat := by
  simp only [Text.byte, Nat.toUInt8, UInt8.toNat_ofNat']
  omega

theorem isDigit_of_mem_ofNat {n : Nat} {b : UInt8} (h : b ∈ ofNat n) : Text.isDigit b = true := by
  obtain ⟨c, hc, rfl⟩ := List.mem_map.mp h
  have hrange := toNat_of_mem_toDigits hc
  have hbyte := toNat_byte (c := c) (by omega)
  simp only [Text.isDigit, Bool.and_eq_true, decide_eq_true_eq, UInt8.le_iff_toNat_le]
  rw [hbyte]
  exact hrange

theorem ofNat_ne_nil (n : Nat) : ofNat n ≠ [] := by
  simp [ofNat, Nat.toDigits_ne_nil]

theorem value_ofNat (n : Nat) : value (ofNat n) = n := by
  have hstep : ∀ cs : List Char, (∀ c ∈ cs, 48 ≤ c.toNat ∧ c.toNat ≤ 57) → ∀ acc,
      cs.foldl (fun k c => k * 10 + ((Text.byte c).toNat - 48)) acc = Nat.ofDigitChars 10 cs acc := by
    intro cs
    induction cs with
    | nil =>
      intro _ acc
      rw [Nat.ofDigitChars_nil]
      rfl
    | cons c cs ih =>
      intro hcs acc
      have hbyte := toNat_byte (c := c) (by have := hcs c List.mem_cons_self; omega)
      have hrest := ih (fun a ha => hcs a (List.mem_cons_of_mem c ha))
      rw [List.foldl_cons, hbyte, hrest, Nat.ofDigitChars_cons, Nat.mul_comm acc 10]
      rfl
  rw [value, ofNat, List.foldl_map, hstep _ (fun c hc => toNat_of_mem_toDigits hc),
    Nat.ofDigitChars_ten_toDigits]

/-! ### Zeros in front -/

theorem value_zeros (k : Nat) (t : Text) : value (Text.repeated 48 k ++ t) = value t := by
  induction k with
  | zero => rfl
  | succ k ih => exact ih

theorem value_padded (w n : Nat) : value (padded w n) = n := by
  rw [padded, value_zeros, value_ofNat]

theorem isDigit_of_mem_padded {w n : Nat} {b : UInt8} (h : b ∈ padded w n) :
    Text.isDigit b = true := by
  rcases List.mem_append.mp h with hzero | hdigit
  · rw [List.eq_of_mem_replicate hzero]
    rfl
  · exact isDigit_of_mem_ofNat hdigit

theorem length_padded {w n : Nat} (hw : 0 < w) (h : n < 10 ^ w) : (padded w n).length = w := by
  have hlength : (ofNat n).length ≤ w := by
    rw [ofNat, List.length_map]
    exact Nat.toDigits_length 10 n w hw h
  simp only [padded, Text.repeated, List.length_append, List.length_replicate]
  omega

/-! ### Numbers in a text -/

variable {x y : Text}

theorem ofNat_append_inj {m n : Nat} (hx : x.Breaks Text.isDigit) (hy : y.Breaks Text.isDigit)
    (h : ofNat m ++ x = ofNat n ++ y) : m = n ∧ x = y := by
  obtain ⟨hdigits, hrest⟩ := Text.append_inj_of_breaks (fun _ => isDigit_of_mem_ofNat)
    (fun _ => isDigit_of_mem_ofNat) hx hy h
  exact ⟨by rw [← value_ofNat m, hdigits, value_ofNat], hrest⟩

theorem padded_append_inj {w m n : Nat} (hx : x.Breaks Text.isDigit) (hy : y.Breaks Text.isDigit)
    (h : padded w m ++ x = padded w n ++ y) : m = n ∧ x = y := by
  obtain ⟨hdigits, hrest⟩ := Text.append_inj_of_breaks (fun _ => isDigit_of_mem_padded)
    (fun _ => isDigit_of_mem_padded) hx hy h
  exact ⟨by rw [← value_padded w m, hdigits, value_padded], hrest⟩

theorem exists_ofNat_eq_cons (n : Nat) : ∃ b t, ofNat n = b :: t ∧ Text.isDigit b = true := by
  obtain ⟨b, t, hcons⟩ := List.exists_cons_of_ne_nil (ofNat_ne_nil n)
  exact ⟨b, t, hcons, isDigit_of_mem_ofNat (hcons ▸ List.mem_cons_self)⟩

/-- The first byte of a number with a sign is not a digit. -/
theorem ofNat_append_ne_minus (m n : Nat) : ofNat m ++ x ≠ ("-" ++ ofNat n) ++ y := by
  intro h
  obtain ⟨b, t, hcons, hdigit⟩ := exists_ofNat_eq_cons m
  rw [hcons] at h
  obtain rfl : b = 45 := (List.cons.inj h).1
  exact absurd hdigit (by decide)

theorem ofInt_append_inj {m n : Int} (hx : x.Breaks Text.isDigit) (hy : y.Breaks Text.isDigit)
    (h : ofInt m ++ x = ofInt n ++ y) : m = n ∧ x = y := by
  cases m with
  | ofNat m =>
    cases n with
    | ofNat n =>
      obtain ⟨rfl, hrest⟩ := ofNat_append_inj hx hy h
      exact ⟨rfl, hrest⟩
    | negSucc n => exact absurd h (ofNat_append_ne_minus m (n + 1))
  | negSucc m =>
    cases n with
    | ofNat n => exact absurd h.symm (ofNat_append_ne_minus n (m + 1))
    | negSucc n =>
      simp only [ofInt, List.append_assoc] at h
      obtain ⟨hnumber, hrest⟩ := ofNat_append_inj hx hy (List.append_cancel_left h)
      obtain rfl : m = n := by omega
      exact ⟨rfl, hrest⟩

/-! ### Zeros at the end -/

/-- The digits of a number of a given width without the zeros at the end. -/
def significant (w n : Nat) : Text := ((padded w n).reverse.dropWhile (· = 48)).reverse

theorem exists_zeros (w n : Nat) : ∃ k, padded w n = significant w n ++ List.replicate k 48 := by
  refine ⟨((padded w n).reverse.takeWhile (· = 48)).length, ?_⟩
  have hzeros : (padded w n).reverse.takeWhile (· = 48) =
      List.replicate ((padded w n).reverse.takeWhile (· = 48)).length 48 :=
    List.eq_replicate_of_mem fun b hb => by
      simpa using List.all_eq_true.mp List.all_takeWhile b hb
  have hsplit := List.takeWhile_append_dropWhile (p := (· = 48)) (l := (padded w n).reverse)
  have hreverse := congrArg List.reverse hsplit
  rw [List.reverse_append, List.reverse_reverse, hzeros, List.reverse_replicate] at hreverse
  exact hreverse.symm

/-- Zeros at the end are known from the width. -/
theorem significant_inj {w m n : Nat} (hw : 0 < w) (hm : m < 10 ^ w) (hn : n < 10 ^ w)
    (h : significant w m = significant w n) : m = n := by
  obtain ⟨k, hk⟩ := exists_zeros w m
  obtain ⟨k', hk'⟩ := exists_zeros w n
  have hlength := length_padded hw hm
  have hlength' := length_padded hw hn
  rw [hk, h, List.length_append, List.length_replicate] at hlength
  rw [hk', List.length_append, List.length_replicate] at hlength'
  obtain rfl : k = k' := by omega
  rw [← value_padded w m, hk, h, ← hk', value_padded]

theorem isDigit_of_mem_significant {w n : Nat} {b : UInt8} (h : b ∈ significant w n) :
    Text.isDigit b = true := by
  obtain ⟨k, hk⟩ := exists_zeros w n
  exact isDigit_of_mem_padded (hk ▸ List.mem_append_left _ h)

end Numeral

/-! ### Fractions -/

namespace Duration

theorem fraction_eq (places n : Nat) :
    fraction places n = if n = 0 then [] else 46 :: Numeral.significant places n := rfl

/-- A fraction is known from its width. -/
theorem fraction_inj {places m n : Nat} (hplaces : 0 < places) (hm : m < 10 ^ places)
    (hn : n < 10 ^ places) (h : fraction places m = fraction places n) : m = n := by
  rw [fraction_eq, fraction_eq] at h
  by_cases hzero : m = 0
  · by_cases hzero' : n = 0
    · rw [hzero, hzero']
    · simp [hzero, hzero'] at h
  · by_cases hzero' : n = 0
    · simp [hzero, hzero'] at h
    · rw [if_neg hzero, if_neg hzero'] at h
      exact Numeral.significant_inj hplaces hm hn (List.cons.inj h).2

end Duration

end Gauntlet
