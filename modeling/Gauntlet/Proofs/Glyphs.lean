import Gauntlet.CaseLog

/-! # Reading bytes loses nothing and stops at newlines

  A text is read glyph by glyph. Each glyph has the bytes that it was read from (`bytes_read`), so
  that writing the glyphs gives the text back (`ofGlyphs_glyphs`). A newline is never a part of a
  longer sequence: what stands before it is read as if the text ended there, and what follows is
  read afresh (`glyphs_newline`).
-/

namespace Gauntlet.Text

open CaseLog (newline)

namespace Glyph

/-! ### One glyph -/

/-- A continuation byte. -/
def IsTail (b : UInt8) : Prop := 0x80 ≤ b.toNat ∧ b.toNat ≤ 0xBF

/-- The value of a well-formed sequence of bytes. -/
inductive Spells : Text → Nat → Prop
  | one {a : UInt8} (ha : a.toNat < 0x80) : Spells [a] a.toNat
  | two {a b : UInt8} (ha : 0xC2 ≤ a.toNat ∧ a.toNat ≤ 0xDF) (hb : IsTail b) :
    Spells [a, b] (a.toNat % 32 * 64 + b.toNat % 64)
  | three {a b c : UInt8} (ha : 0xE0 ≤ a.toNat ∧ a.toNat ≤ 0xEF) (hb : IsTail b) (hc : IsTail c)
    (hlow : a.toNat = 0xE0 → 0xA0 ≤ b.toNat) (hhigh : a.toNat = 0xED → b.toNat ≤ 0x9F) :
    Spells [a, b, c] ((a.toNat % 16 * 64 + b.toNat % 64) * 64 + c.toNat % 64)
  | four {a b c d : UInt8} (ha : 0xF0 ≤ a.toNat ∧ a.toNat ≤ 0xF4) (hb : IsTail b) (hc : IsTail c)
    (hd : IsTail d) (hlow : a.toNat = 0xF0 → 0x90 ≤ b.toNat)
    (hhigh : a.toNat = 0xF4 → b.toNat ≤ 0x8F) :
    Spells [a, b, c, d]
      (((a.toNat % 8 * 64 + b.toNat % 64) * 64 + c.toNat % 64) * 64 + d.toNat % 64)

theorem within_iff {lo hi b : UInt8} :
    within lo hi b = true ↔ lo.toNat ≤ b.toNat ∧ b.toNat ≤ hi.toNat := by
  simp [within, UInt8.le_iff_toNat_le]

/-- The byte after the lead is a continuation byte, within narrower bounds after four leads. -/
theorem within_secondBounds {lead b : UInt8}
    (h : within (secondBounds lead).1 (secondBounds lead).2 b = true) :
    IsTail b ∧ (lead.toNat = 0xE0 → 0xA0 ≤ b.toNat) ∧ (lead.toNat = 0xED → b.toNat ≤ 0x9F) ∧
    (lead.toNat = 0xF0 → 0x90 ≤ b.toNat) ∧ (lead.toNat = 0xF4 → b.toNat ≤ 0x8F) := by
  rw [within_iff] at h
  unfold secondBounds at h
  simp only [← UInt8.toNat_inj] at h
  unfold IsTail
  split at h
  · simp_all
    omega
  split at h
  · simp_all
    omega
  split at h
  · simp_all
    omega
  split at h
  · simp_all
    omega
  · simp_all

/-- What is read is a well-formed sequence, and the character that it spells. -/
theorem spells_of_read {lead : UInt8} {rest : Text} {c : Char} {k : Nat}
    (h : read? lead rest = some (c, k)) :
    k ≤ rest.length ∧ ∃ v, Spells (lead :: rest.take k) v ∧ c = Char.ofNat v := by
  have hlead : ∀ {lo hi : UInt8}, within lo hi lead = true →
      lo.toNat ≤ lead.toNat ∧ lead.toNat ≤ hi.toNat := within_iff.mp
  have htail : ∀ {b : UInt8}, within 0x80 0xBF b = true → IsTail b := within_iff.mp
  unfold read? at h
  dsimp only at h
  split at h
  · rename_i hone
    obtain ⟨rfl, rfl⟩ := Prod.mk.inj (Option.some.inj h)
    exact ⟨Nat.zero_le _, _, .one (UInt8.lt_iff_toNat_lt.mp hone), rfl⟩
  split at h
  · rename_i htwo
    split at h
    · rename_i b rest
      split at h
      · rename_i hb
        obtain ⟨rfl, rfl⟩ := Prod.mk.inj (Option.some.inj h)
        exact ⟨by simp, _, .two (hlead htwo) (within_secondBounds hb).1, rfl⟩
      · simp at h
    · simp at h
  split at h
  · rename_i hthree
    split at h
    · rename_i b c rest
      split at h
      · rename_i hbc
        obtain ⟨hb, hc⟩ := Bool.and_eq_true_iff.mp hbc
        obtain ⟨hb, hlow, hhigh, _⟩ := within_secondBounds hb
        obtain ⟨rfl, rfl⟩ := Prod.mk.inj (Option.some.inj h)
        exact ⟨by simp, _, .three (hlead hthree) hb (htail hc) hlow hhigh, rfl⟩
      · simp at h
    · simp at h
  split at h
  · rename_i hfour
    split at h
    · rename_i b c d rest
      split at h
      · rename_i hbcd
        obtain ⟨hbc, hd⟩ := Bool.and_eq_true_iff.mp hbcd
        obtain ⟨hb, hc⟩ := Bool.and_eq_true_iff.mp hbc
        obtain ⟨hb, _, _, hlow, hhigh⟩ := within_secondBounds hb
        obtain ⟨rfl, rfl⟩ := Prod.mk.inj (Option.some.inj h)
        exact ⟨by simp, _, .four (hlead hfour) hb (htail hc) (htail hd) hlow hhigh, rfl⟩
      · simp at h
    · simp at h
  · simp at h

theorem Spells.val_ofNat {t : Text} {v : Nat} (h : Spells t v) :
    (Char.ofNat v).val.toNat = v := by
  have hvalid : v.isValidChar := by
    unfold Nat.isValidChar
    cases h with
    | one ha => omega
    | two ha hb => omega
    | three ha hb hc hlow hhigh =>
      unfold IsTail at hb hc
      omega
    | four ha hb hc hd hlow hhigh =>
      unfold IsTail at hb hc hd
      omega
  unfold Char.ofNat
  rw [dif_pos hvalid]
  rfl

theorem ofNat_eq_of_toNat {n : Nat} {b : UInt8} (h : n = b.toNat) : UInt8.ofNat n = b := by
  rw [h, UInt8.ofNat_toNat]

/-- The bytes of a character are the sequence that spells it. -/
theorem Spells.bytes {t : Text} {v : Nat} (h : Spells t v) : (scalar (Char.ofNat v)).bytes = t := by
  show String.utf8EncodeChar (Char.ofNat v) = t
  unfold String.utf8EncodeChar
  rw [h.val_ofNat]
  cases h with
  | one ha =>
    rw [if_pos (by omega), UInt8.ofNat_toNat]
  | two ha hb =>
    unfold IsTail at hb
    rw [if_neg (by omega), if_pos (by omega)]
    simp only [List.cons.injEq, and_true]
    exact ⟨ofNat_eq_of_toNat (by omega), ofNat_eq_of_toNat (by omega)⟩
  | three ha hb hc hlow hhigh =>
    unfold IsTail at hb hc
    rw [if_neg (by omega), if_neg (by omega), if_pos (by omega)]
    simp only [List.cons.injEq, and_true]
    exact ⟨ofNat_eq_of_toNat (by omega), ofNat_eq_of_toNat (by omega),
      ofNat_eq_of_toNat (by omega)⟩
  | four ha hb hc hd hlow hhigh =>
    unfold IsTail at hb hc hd
    rw [if_neg (by omega), if_neg (by omega), if_neg (by omega)]
    simp only [List.cons.injEq, and_true]
    exact ⟨ofNat_eq_of_toNat (by omega), ofNat_eq_of_toNat (by omega),
      ofNat_eq_of_toNat (by omega), ofNat_eq_of_toNat (by omega)⟩

/-- The bytes of a character are those that it was read from. -/
theorem bytes_read {lead : UInt8} {rest : Text} {c : Char} {k : Nat}
    (h : read? lead rest = some (c, k)) :
    k ≤ rest.length ∧ (scalar c).bytes = lead :: rest.take k := by
  obtain ⟨hk, v, hspells, rfl⟩ := spells_of_read h
  exact ⟨hk, hspells.bytes⟩

/-- No sequence goes on across a newline. -/
theorem read_newline (lead : UInt8) (s t : Text) :
    read? lead (s ++ newline :: t) = read? lead s := by
  have houtside : ∀ {lo hi : UInt8}, 11 ≤ lo.toNat → within lo hi newline = false := by
    intro lo hi hlo
    have hnot : ¬ within lo hi newline = true := by
      rw [within_iff]
      have : newline.toNat = 10 := rfl
      omega
    simpa using hnot
  have hbound : 11 ≤ (secondBounds lead).1.toNat := by
    unfold secondBounds
    split
    · decide
    split
    · decide
    split
    · decide
    split <;> decide
  have hsecond : within (secondBounds lead).1 (secondBounds lead).2 newline = false :=
    houtside hbound
  have hlater : within 0x80 0xBF newline = false := houtside (by decide)
  -- The newline is one of the three bytes that may follow, or none of them.
  match s with
  | [] =>
    rcases t with _ | ⟨b, _ | ⟨c, t⟩⟩ <;> simp [read?, hsecond]
  | [b] =>
    rcases t with _ | ⟨c, t⟩ <;> simp [read?, hlater]
  | [b, c] => simp [read?, hlater]
  | b :: c :: d :: s => simp [read?]

/-! ### All glyphs -/

/-- The glyphs have the bytes of the text, but for those that had been read before. -/
theorem flatMap_listAfter {k : Nat} {t : Text} (h : k ≤ t.length) :
    (listAfter k t).flatMap bytes = t.drop k := by
  fun_induction listAfter k t with
  | case1 k => simp
  | case2 k b t ih => simpa using ih (by simpa using h)
  | case3 b t c k hread ih =>
    obtain ⟨hk, hbytes⟩ := bytes_read hread
    rw [List.flatMap_cons, hbytes, ih hk, List.cons_append, List.take_append_drop, List.drop_zero]
  | case4 b t hread ih =>
    rw [List.flatMap_cons, ih (Nat.zero_le _)]
    rfl

/-- What stands before a newline is read as if the text ended there. -/
theorem listAfter_newline {k : Nat} {s : Text} (h : k ≤ s.length) (t : Text) :
    listAfter k (s ++ newline :: t) = listAfter k s ++ scalar '\n' :: listAfter 0 t := by
  fun_induction listAfter k s with
  | case1 k =>
    obtain rfl : k = 0 := by simpa using h
    rfl
  | case2 k b s ih => exact ih (by simpa using h)
  | case3 b s c k hread ih =>
    rw [List.cons_append, listAfter, read_newline, hread]
    exact congrArg _ (ih (bytes_read hread).1)
  | case4 b s hread ih =>
    rw [List.cons_append, listAfter, read_newline, hread]
    exact congrArg _ (ih (Nat.zero_le _))

end Glyph

/-- Reading loses nothing. -/
theorem ofGlyphs_glyphs (t : Text) : ofGlyphs (glyphs t) = t :=
  Glyph.flatMap_listAfter (Nat.zero_le _)

theorem glyphs_newline (s t : Text) :
    glyphs (s ++ newline :: t) = glyphs s ++ .scalar '\n' :: glyphs t :=
  Glyph.listAfter_newline (Nat.zero_le _) t

theorem ofGlyphs_append (gs gs' : List Glyph) :
    ofGlyphs (gs ++ gs') = ofGlyphs gs ++ ofGlyphs gs' := List.flatMap_append

end Gauntlet.Text
