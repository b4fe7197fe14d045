import Gauntlet.Proofs.Glyphs

/-! # Texts made of characters

  The bytes of a character are read as this character, whatever follows them
  (`read_utf8EncodeChar`). So the texts without stray bytes are those that some characters spell
  (`isUtf8_iff`), and the characters are known from the text.
-/

namespace Gauntlet.Text

namespace Glyph

/-! ### One character -/

theorem toNat_ofNat {n : Nat} (h : n < 256) : (UInt8.ofNat n).toNat = n := by
  rw [UInt8.toNat_ofNat', Nat.mod_eq_of_lt h]

theorem Spells.of_eq {t : Text} {v w : Nat} (h : Spells t v) (hvw : v = w) : Spells t w :=
  hvw ▸ h

theorem spells_utf8EncodeChar (c : Char) : Spells (String.utf8EncodeChar c) c.toNat := by
  have hvalid : c.val.toNat < 0xD800 ∨ 0xDFFF < c.val.toNat ∧ c.val.toNat < 0x110000 := c.valid
  show Spells (String.utf8EncodeChar c) c.val.toNat
  unfold String.utf8EncodeChar
  generalize c.val.toNat = v at hvalid ⊢
  have hlast := toNat_ofNat (n := v % 64 + 128) (by omega)
  have hmiddle := toNat_ofNat (n := v / 64 % 64 + 128) (by omega)
  dsimp only
  split
  · have hlead := toNat_ofNat (n := v) (by omega)
    exact (Spells.one (by omega)).of_eq (by omega)
  split
  · have hlead := toNat_ofNat (n := v / 64 % 32 + 192) (by omega)
    exact (Spells.two (by omega) ⟨by omega, by omega⟩).of_eq (by omega)
  split
  · have hlead := toNat_ofNat (n := v / 4096 % 16 + 224) (by omega)
    exact (Spells.three (by omega) ⟨by omega, by omega⟩ ⟨by omega, by omega⟩ (by omega)
      (by omega)).of_eq (by omega)
  · have hlead := toNat_ofNat (n := v / 262144 % 8 + 240) (by omega)
    have hsecond := toNat_ofNat (n := v / 4096 % 64 + 128) (by omega)
    exact (Spells.four (by omega) ⟨by omega, by omega⟩ ⟨by omega, by omega⟩ ⟨by omega, by omega⟩
      (by omega) (by omega)).of_eq (by omega)

/-- The converse of `within_secondBounds`. -/
theorem within_secondBounds_of_tail {a b : UInt8} (hb : IsTail b)
    (hthree : (a.toNat = 0xE0 → 0xA0 ≤ b.toNat) ∧ (a.toNat = 0xED → b.toNat ≤ 0x9F))
    (hfour : (a.toNat = 0xF0 → 0x90 ≤ b.toNat) ∧ (a.toNat = 0xF4 → b.toNat ≤ 0x8F)) :
    within (secondBounds a).1 (secondBounds a).2 b = true := by
  unfold IsTail at hb
  rw [within_iff]
  unfold secondBounds
  simp only [← UInt8.toNat_inj]
  split
  · simp_all
  split
  · simp_all
  split
  · simp_all
  split
  · simp_all
  · simp_all

/-- A well-formed sequence is read as what it spells. -/
theorem Spells.read {t : Text} {v : Nat} (h : Spells t v) (x : Text) :
    ∃ lead rest, t = lead :: rest ∧ read? lead (rest ++ x) = some (Char.ofNat v, rest.length) := by
  have htail : ∀ {b : UInt8}, IsTail b → within 0x80 0xBF b = true := fun hb => within_iff.mpr hb
  have hlong : ∀ {a : UInt8}, 0x80 ≤ a.toNat → ¬ a < 0x80 := fun ha hlt =>
    absurd (UInt8.lt_iff_toNat_lt.mp hlt) (Nat.not_lt_of_le ha)
  have hnot_two : ∀ {a : UInt8}, 0xDF < a.toNat → ¬ within 0xC2 0xDF a = true := fun ha hin =>
    absurd (within_iff.mp hin).2 (Nat.not_le_of_lt ha)
  have hnot_three : ∀ {a : UInt8}, 0xEF < a.toNat → ¬ within 0xE0 0xEF a = true := fun ha hin =>
    absurd (within_iff.mp hin).2 (Nat.not_le_of_lt ha)
  cases h with
  | @one a ha =>
    refine ⟨a, [], rfl, ?_⟩
    unfold read?
    exact if_pos (UInt8.lt_iff_toNat_lt.mpr ha)
  | @two a b ha hb =>
    have htwo : within 0xC2 0xDF a = true := within_iff.mpr ha
    have hsecond := within_secondBounds_of_tail hb (a := a) (by omega) (by omega)
    refine ⟨a, [b], rfl, ?_⟩
    simp only [read?, List.cons_append]
    rw [if_neg (hlong (by omega)), if_pos htwo, if_pos hsecond]
    rfl
  | @three a b c ha hb hc hlow hhigh =>
    have hthree : within 0xE0 0xEF a = true := within_iff.mpr ha
    have hsecond := within_secondBounds_of_tail hb (a := a) ⟨hlow, hhigh⟩ (by omega)
    refine ⟨a, [b, c], rfl, ?_⟩
    simp only [read?, List.cons_append]
    rw [if_neg (hlong (by omega)), if_neg (hnot_two (by omega)), if_pos hthree,
      if_pos (by rw [hsecond, htail hc]; rfl)]
    rfl
  | @four a b c d ha hb hc hd hlow hhigh =>
    have hfour : within 0xF0 0xF4 a = true := within_iff.mpr ha
    have hsecond := within_secondBounds_of_tail hb (a := a) (by omega) ⟨hlow, hhigh⟩
    refine ⟨a, [b, c, d], rfl, ?_⟩
    simp only [read?, List.cons_append]
    rw [if_neg (hlong (by omega)), if_neg (hnot_two (by omega)), if_neg (hnot_three (by omega)),
      if_pos hfour, if_pos (by rw [hsecond, htail hc, htail hd]; rfl)]
    rfl

theorem read_utf8EncodeChar (c : Char) (x : Text) : ∃ lead rest,
    String.utf8EncodeChar c = lead :: rest ∧ read? lead (rest ++ x) = some (c, rest.length) := by
  obtain ⟨lead, rest, hbytes, hread⟩ := (spells_utf8EncodeChar c).read x
  rw [Char.ofNat_toNat] at hread
  exact ⟨lead, rest, hbytes, hread⟩

/-! ### All characters -/

/-- Bytes that have been read are passed over. -/
theorem listAfter_append (s t : Text) : listAfter s.length (s ++ t) = listAfter 0 t := by
  induction s with
  | nil => rfl
  | cons b s ih => exact ih

end Glyph

theorem glyphs_utf8EncodeChar (c : Char) (t : Text) :
    glyphs (String.utf8EncodeChar c ++ t) = .scalar c :: glyphs t := by
  obtain ⟨lead, rest, hbytes, hread⟩ := Glyph.read_utf8EncodeChar c t
  rw [hbytes, glyphs, List.cons_append, Glyph.listAfter, hread]
  exact congrArg _ (Glyph.listAfter_append rest t)

theorem glyphs_ofChars (cs : List Char) : glyphs (ofChars cs) = cs.map .scalar := by
  induction cs with
  | nil => rfl
  | cons c cs ih =>
    rw [ofChars, List.flatMap_cons, glyphs_utf8EncodeChar]
    exact congrArg _ ih

/-- The texts without stray bytes are those that characters spell. -/
theorem isUtf8_iff {t : Text} : isUtf8 t = true ↔ ∃ cs, t = ofChars cs := by
  constructor
  · intro h
    rw [isUtf8] at h
    rw [← ofGlyphs_glyphs t]
    generalize glyphs t = gs at h
    induction gs with
    | nil => exact ⟨[], rfl⟩
    | cons g gs ih =>
      obtain ⟨hg, hgs⟩ := Bool.and_eq_true_iff.mp h
      cases g with
      | stray b => simp at hg
      | scalar c =>
        obtain ⟨cs, hcs⟩ := ih hgs
        exact ⟨c :: cs, congrArg (String.utf8EncodeChar c ++ ·) hcs⟩
  · rintro ⟨cs, rfl⟩
    rw [isUtf8, glyphs_ofChars, List.all_map]
    exact List.all_eq_true.mpr fun c _ => rfl

theorem isUtf8_append {s t : Text} (hs : isUtf8 s = true) (ht : isUtf8 t = true) :
    isUtf8 (s ++ t) = true := by
  obtain ⟨cs, rfl⟩ := isUtf8_iff.mp hs
  obtain ⟨ds, rfl⟩ := isUtf8_iff.mp ht
  exact isUtf8_iff.mpr ⟨cs ++ ds, List.flatMap_append.symm⟩

theorem isUtf8_ofString (s : String) : isUtf8 (ofString s) = true := by
  obtain ⟨cs, hcs⟩ := s.isValidUTF8
  refine isUtf8_iff.mpr ⟨cs, ?_⟩
  show s.toByteArray.data.toList = _
  rw [hcs, List.utf8Encode]
  simp [ofChars]

theorem isUtf8_of_ascii {t : Text} (h : ∀ b ∈ t, b.toNat < 0x80) : isUtf8 t = true := by
  refine isUtf8_iff.mpr ⟨t.map fun b => Char.ofNat b.toNat, ?_⟩
  induction t with
  | nil => rfl
  | cons b t ih =>
    have hbyte : String.utf8EncodeChar (Char.ofNat b.toNat) = [b] :=
      (Glyph.Spells.one (h b List.mem_cons_self)).bytes
    have hrest := ih fun x hx => h x (List.mem_cons_of_mem b hx)
    rw [ofChars, List.map_cons, List.flatMap_cons, hbyte]
    exact congrArg (b :: ·) hrest

theorem isUtf8_of_isDigit {t : Text} (h : ∀ b ∈ t, isDigit b = true) : isUtf8 t = true := by
  refine isUtf8_of_ascii fun b hb => ?_
  have hdigit := h b hb
  simp only [isDigit, Bool.and_eq_true, decide_eq_true_eq, UInt8.le_iff_toNat_le] at hdigit
  exact Nat.lt_of_le_of_lt hdigit.2 (by decide)

end Gauntlet.Text
