import Gauntlet.Proofs.Digits
import Gauntlet.Proofs.Utf8

/-! # Durations that can be read back

  The text of a duration is a list of amounts with their units. Amounts are made of digits and
  a point, units of other bytes, so that it is known where each of them ends (`joined_inj`).

  The units tell how the amounts were taken from the number of nanoseconds (`Grade`), and the
  amounts then give that number back, so no two durations have the same text (`text_inj`).
-/

namespace Gauntlet.Duration

/-! ### Amounts and units -/

/-- A byte of an amount. -/
def isAmount (b : UInt8) : Bool := Text.isDigit b || b == 46

/-- A text that no amount runs into. -/
def isUnit (u : Text) : Bool := !u.isEmpty && u.all (fun b => !isAmount b) && Text.isUtf8 u

/-- An amount with a unit. -/
structure Measures (a : Text × Text) : Prop where
  amount_ne_nil : a.1 ≠ []
  amount : ∀ b ∈ a.1, isAmount b = true
  unit_ne_nil : a.2 ≠ []
  unit : ∀ b ∈ a.2, isAmount b = false
  unit_utf8 : Text.isUtf8 a.2 = true

namespace Measures

variable {a : Text × Text}

theorem breaks_unit (h : Measures a) (t : Text) : Text.Breaks isAmount (a.2 ++ t) := by
  obtain ⟨b, u, hu⟩ := List.exists_cons_of_ne_nil h.unit_ne_nil
  rw [hu]
  exact Text.breaks_cons (h.unit b (hu ▸ List.mem_cons_self)) (u ++ t)

theorem breaks_amount (h : Measures a) (t : Text) :
    Text.Breaks (fun b => !isAmount b) (a.1 ++ t) := by
  obtain ⟨b, u, hu⟩ := List.exists_cons_of_ne_nil h.amount_ne_nil
  rw [hu]
  exact Text.breaks_cons (by simp [h.amount b (hu ▸ List.mem_cons_self)]) (u ++ t)

theorem isUtf8 (h : Measures a) : Text.isUtf8 (a.1 ++ a.2) = true := by
  refine Text.isUtf8_append (Text.isUtf8_of_ascii ?_) h.unit_utf8
  intro b hb
  have hamount := h.amount b hb
  simp only [isAmount, Text.isDigit, Bool.or_eq_true, Bool.and_eq_true, decide_eq_true_eq,
    beq_iff_eq, UInt8.le_iff_toNat_le] at hamount
  rcases hamount with hdigit | rfl
  · exact Nat.lt_of_le_of_lt hdigit.2 (by decide)
  · decide

theorem of_isUnit {t u : Text} (hne : t ≠ []) (ht : ∀ b ∈ t, isAmount b = true)
    (hu : isUnit u = true) : Measures (t, u) := by
  simp only [isUnit, Bool.and_eq_true, List.all_eq_true, Bool.not_eq_true',
    List.isEmpty_eq_false_iff] at hu
  exact ⟨hne, ht, hu.1.1, hu.1.2, hu.2⟩

end Measures

/-- Amounts with their units as one text. -/
def joined (as : List (Text × Text)) : Text := as.flatMap fun a => a.1 ++ a.2

/-- After a unit the text ends or goes on with an amount. -/
theorem breaks_joined {as : List (Text × Text)} (h : ∀ a ∈ as, Measures a) :
    Text.Breaks (fun b => !isAmount b) (joined as) := by
  cases as with
  | nil => exact Text.breaks_nil _
  | cons a as =>
    rw [joined, List.flatMap_cons, List.append_assoc]
    exact (h a List.mem_cons_self).breaks_amount _

theorem isUtf8_joined {as : List (Text × Text)} (h : ∀ a ∈ as, Measures a) :
    Text.isUtf8 (joined as) = true := by
  induction as with
  | nil => rfl
  | cons a as ih =>
    rw [joined, List.flatMap_cons]
    exact Text.isUtf8_append (h a List.mem_cons_self).isUtf8
      (ih fun x hx => h x (List.mem_cons_of_mem a hx))

/-- Amounts with their units can be told apart. -/
theorem joined_inj {as as' : List (Text × Text)} (h : ∀ a ∈ as, Measures a)
    (h' : ∀ a ∈ as', Measures a) (heq : joined as = joined as') : as = as' := by
  induction as generalizing as' with
  | nil =>
    cases as' with
    | nil => rfl
    | cons a' as' =>
      have hne := (h' a' List.mem_cons_self).amount_ne_nil
      simp [joined, hne] at heq
  | cons a as ih =>
    have ha := h a List.mem_cons_self
    cases as' with
    | nil =>
      have hne := ha.amount_ne_nil
      simp [joined, hne] at heq
    | cons a' as' =>
      have ha' := h' a' List.mem_cons_self
      have hrest : ∀ x ∈ as, Measures x := fun x hx => h x (List.mem_cons_of_mem a hx)
      have hrest' : ∀ x ∈ as', Measures x := fun x hx => h' x (List.mem_cons_of_mem a' hx)
      have hcons : a.1 ++ (a.2 ++ joined as) = a'.1 ++ (a'.2 ++ joined as') := by
        simpa [joined] using heq
      -- First the amount ends, then the unit.
      obtain ⟨hamount, hmore⟩ := Text.append_inj_of_breaks ha.amount ha'.amount
        (ha.breaks_unit _) (ha'.breaks_unit _) hcons
      obtain ⟨hunit, hmore⟩ := Text.append_inj_of_breaks (p := fun b => !isAmount b)
        (fun b hb => by simp [ha.unit b hb]) (fun b hb => by simp [ha'.unit b hb])
        (breaks_joined hrest) (breaks_joined hrest') hmore
      rw [Prod.ext hamount hunit, ih hrest hrest' hmore]

/-! ### Amounts in one unit -/

theorem isAmount_of_mem_ofNat {n : Nat} {b : UInt8} (h : b ∈ Numeral.ofNat n) :
    isAmount b = true := by
  simp [isAmount, Numeral.isDigit_of_mem_ofNat h]

theorem isAmount_of_mem_inUnit {n places : Nat} {b : UInt8} (h : b ∈ inUnit n places) :
    isAmount b = true := by
  rw [inUnit, fraction_eq] at h
  rcases List.mem_append.mp h with hwhole | hpart
  · exact isAmount_of_mem_ofNat hwhole
  · split at hpart
    · simp at hpart
    · rcases List.mem_cons.mp hpart with rfl | hdigit
      · rfl
      · simp [isAmount, Numeral.isDigit_of_mem_significant hdigit]

theorem inUnit_ne_nil (n places : Nat) : inUnit n places ≠ [] := by
  simp [inUnit, Numeral.ofNat_ne_nil]

theorem inUnit_inj {m n places : Nat} (hplaces : 0 < places)
    (h : inUnit m places = inUnit n places) : m = n := by
  have hbreaks : ∀ k, Text.Breaks Text.isDigit (fraction places k) := by
    intro k
    rw [fraction_eq]
    split
    · exact Text.breaks_nil _
    · exact Text.breaks_cons (b := 46) rfl _
  have hpos : 0 < Nat.pow 10 places := Nat.pow_pos (by omega)
  obtain ⟨hwhole, hpart⟩ := Numeral.ofNat_append_inj (hbreaks _) (hbreaks _) h
  have hrest : m % Nat.pow 10 places = n % Nat.pow 10 places :=
    fraction_inj hplaces (Nat.mod_lt m hpos) (Nat.mod_lt n hpos) hpart
  rw [← Nat.div_add_mod m (Nat.pow 10 places), hwhole, hrest, Nat.div_add_mod]

/-! ### Which units are used -/

/-- The units that a duration is given in. -/
inductive Grade where
  | nanos
  | micros
  | millis
  | seconds
  | minutes
  | hours

/-- The units of a number of nanoseconds. -/
def gradeOf (n : Nat) : Grade :=
  if n = 0 then .seconds
  else if n < 1000 then .nanos
  else if n < 1000000 then .micros
  else if n < 1000000000 then .millis
  else if n / 1000000000 < 60 then .seconds
  else if n / 1000000000 < 3600 then .minutes
  else .hours

/-- A number of nanoseconds as amounts of units. -/
def Grade.amounts (n : Nat) : Grade → List (Text × Text)
  | nanos => [(Numeral.ofNat n, "ns")]
  | micros => [(inUnit n 3, "µs")]
  | millis => [(inUnit n 6, "ms")]
  | seconds => [(inUnit n 9, "s")]
  | minutes => [(Numeral.ofNat (n / 60000000000), "m"), (inUnit (n % 60000000000) 9, "s")]
  | hours => [(Numeral.ofNat (n / 3600000000000), "h"),
      (Numeral.ofNat (n / 60000000000 % 60), "m"), (inUnit (n % 60000000000) 9, "s")]

/-- The units in the order of their amounts. -/
def Grade.units : Grade → List Text
  | nanos => ["ns"]
  | micros => ["µs"]
  | millis => ["ms"]
  | seconds => ["s"]
  | minutes => ["m", "s"]
  | hours => ["h", "m", "s"]

theorem Grade.map_snd_amounts (g : Grade) (n : Nat) : (g.amounts n).map Prod.snd = g.units := by
  cases g <;> rfl

theorem Grade.units_inj {g g' : Grade} (h : g.units = g'.units) : g = g' := by
  cases g <;> cases g' <;> first | rfl | exact absurd h (by decide)

/-- The amounts give the number back. -/
theorem Grade.amounts_inj {g : Grade} {m n : Nat} (h : g.amounts m = g.amounts n) : m = n := by
  have hnumber : ∀ {a b : Nat}, Numeral.ofNat a = Numeral.ofNat b → a = b := by
    intro a b hab
    rw [← Numeral.value_ofNat a, hab, Numeral.value_ofNat]
  have hfirst : ∀ {a b u : Text}, [(a, u)] = [(b, u)] → a = b := fun hab => by simpa using hab
  cases g with
  | nanos => exact hnumber (hfirst h)
  | micros => exact inUnit_inj (by omega) (hfirst h)
  | millis => exact inUnit_inj (by omega) (hfirst h)
  | seconds => exact inUnit_inj (by omega) (hfirst h)
  | minutes =>
    simp only [amounts, List.cons.injEq, Prod.mk.injEq, and_true] at h
    have hminutes := hnumber h.1
    have hseconds := inUnit_inj (by omega) h.2
    omega
  | hours =>
    simp only [amounts, List.cons.injEq, Prod.mk.injEq, and_true] at h
    have hhours := hnumber h.1
    have hminutes := hnumber h.2.1
    have hseconds := inUnit_inj (by omega) h.2.2
    omega

theorem measures_of_mem_amounts {n : Nat} {g : Grade} : ∀ a ∈ g.amounts n, Measures a := by
  have hnumber (k : Nat) (u : Text) (hu : isUnit u = true) : Measures (Numeral.ofNat k, u) :=
    .of_isUnit (Numeral.ofNat_ne_nil k) (fun _ => isAmount_of_mem_ofNat) hu
  have hunit (k places : Nat) (u : Text) (hu : isUnit u = true) : Measures (inUnit k places, u) :=
    .of_isUnit (inUnit_ne_nil k places) (fun _ => isAmount_of_mem_inUnit) hu
  cases g with
  | nanos => exact List.forall_mem_singleton.mpr (hnumber n "ns" (by decide))
  | micros => exact List.forall_mem_singleton.mpr (hunit n 3 "µs" (by decide))
  | millis => exact List.forall_mem_singleton.mpr (hunit n 6 "ms" (by decide))
  | seconds => exact List.forall_mem_singleton.mpr (hunit n 9 "s" (by decide))
  | minutes =>
    exact List.forall_mem_cons.mpr ⟨hnumber _ "m" (by decide),
      List.forall_mem_singleton.mpr (hunit _ 9 "s" (by decide))⟩
  | hours =>
    exact List.forall_mem_cons.mpr ⟨hnumber _ "h" (by decide),
      List.forall_mem_cons.mpr ⟨hnumber _ "m" (by decide),
        List.forall_mem_singleton.mpr (hunit _ 9 "s" (by decide))⟩⟩

/-! ### The text of a duration -/

/-- What is left of a duration after the minutes. -/
theorem inUnit_seconds (n : Nat) : inUnit (n % 60000000000) 9 =
    Numeral.ofNat (n / 1000000000 % 60) ++ fraction 9 (n % 1000000000) := by
  have hpow : Nat.pow 10 9 = 1000000000 := rfl
  have hwhole : n % 60000000000 / 1000000000 = n / 1000000000 % 60 := by omega
  have hpart : n % 60000000000 % 1000000000 = n % 1000000000 := by omega
  rw [inUnit, hpow, hwhole, hpart]

theorem textOfNat_eq (n : Nat) : textOfNat n = joined ((gradeOf n).amounts n) := by
  have hminutes : n / 1000000000 / 60 = n / 60000000000 := by omega
  have hhours : n / 1000000000 / 3600 = n / 3600000000000 := by omega
  unfold textOfNat gradeOf
  split
  · rename_i hzero
    rw [hzero]
    decide
  split
  · simp [Grade.amounts, joined]
  split
  · simp [Grade.amounts, joined]
  split
  · simp [Grade.amounts, joined]
  dsimp only
  split
  · simp [Grade.amounts, joined, inUnit]
  split
  · simp [Grade.amounts, joined, inUnit_seconds, hminutes]
  · simp [Grade.amounts, joined, inUnit_seconds, hminutes, hhours]

theorem textOfNat_inj {m n : Nat} (h : textOfNat m = textOfNat n) : m = n := by
  rw [textOfNat_eq, textOfNat_eq] at h
  have hamounts := joined_inj measures_of_mem_amounts measures_of_mem_amounts h
  have hgrade : gradeOf m = gradeOf n := by
    apply Grade.units_inj
    rw [← Grade.map_snd_amounts _ m, hamounts, Grade.map_snd_amounts]
  rw [hgrade] at hamounts
  exact Grade.amounts_inj hamounts

/-- The text of a number of nanoseconds has no sign in front. -/
theorem textOfNat_ne_minus (m n : Nat) : textOfNat m ≠ "-" ++ textOfNat n := by
  intro h
  have hbreaks := breaks_joined (measures_of_mem_amounts (n := m) (g := gradeOf m))
  rw [← textOfNat_eq, h] at hbreaks
  exact absurd (hbreaks 45 rfl) (by decide)

theorem isUtf8_text (d : Duration) : Text.isUtf8 d.text = true := by
  have hnat : ∀ n, Text.isUtf8 (textOfNat n) = true := fun n =>
    textOfNat_eq n ▸ isUtf8_joined measures_of_mem_amounts
  unfold text
  split
  · exact Text.isUtf8_append rfl (hnat _)
  · exact hnat _

theorem text_inj {d d' : Duration} (h : d.text = d'.text) : d = d' := by
  have hsame : d.toInt = d'.toInt := by
    unfold text at h
    by_cases hneg : d.toInt < 0
    · by_cases hneg' : d'.toInt < 0
      · rw [if_pos hneg, if_pos hneg'] at h
        have hnat := textOfNat_inj (List.append_cancel_left h)
        omega
      · rw [if_pos hneg, if_neg hneg'] at h
        exact absurd h.symm (textOfNat_ne_minus _ _)
    · by_cases hneg' : d'.toInt < 0
      · rw [if_neg hneg, if_pos hneg'] at h
        exact absurd h (textOfNat_ne_minus _ _)
      · rw [if_neg hneg, if_neg hneg'] at h
        have hnat := textOfNat_inj h
        omega
  obtain ⟨nanos⟩ := d
  obtain ⟨nanos'⟩ := d'
  exact congrArg Duration.mk (Int64.toInt_inj.mp hsame)

end Gauntlet.Duration
