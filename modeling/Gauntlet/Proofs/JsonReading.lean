import Gauntlet.Datum.Json
import Gauntlet.Proofs.Digits
import Gauntlet.Proofs.Utf8
import Mathlib.Data.List.Forall2

/-! # JSON that can be read back

  What a character of a string is written as gives it back, whatever follows (`read_char`), and
  never begins with the quote that ends the string. So it is known where a string ends and what it
  says (`string_append_inj`).

  The first byte of a datum tells its kind (`form_ofDatum`). Items are set apart by commas, and a
  bracket follows the last one, so that the items of a list and the fields of a record can be told
  apart if each of them can (`enclosed_append_inj`). By recursion over the datum, data with the same
  JSON say the same (`ofDatum_append_inj`). Only an instant cannot be told from its text.
-/

namespace Gauntlet.Json

open Text (Breaks isDigit)

/-! ### Characters of a string -/

/-- The number that hexadecimal digits make. -/
def hexNumber (t : Text) : Nat := t.foldl (fun n b => n * 16 + Text.hexValue b) 0

theorem hexNumber_hexDigits {w n : Nat} (h : n < 16 ^ w) : hexNumber (Text.hexDigits w n) = n := by
  have hdigit : ∀ d < 16, Text.hexValue (Text.hexDigit d) = d := by decide
  induction w generalizing n with
  | zero =>
    obtain rfl : n = 0 := by simpa using h
    rfl
  | succ w ih =>
    have hlead : hexNumber (Text.hexDigits w (n / 16)) = n / 16 := ih (by omega)
    rw [hexNumber] at hlead ⊢
    rw [Text.hexDigits, List.foldl_append, hlead, List.foldl_cons, List.foldl_nil,
      hdigit _ (Nat.mod_lt _ (by omega)), Nat.div_add_mod']

/-- The character that a backslash and a letter stand for. -/
def marked? : UInt8 → Option Char
  | 34 => some '"'
  | 92 => some '\\'
  | 98 => some '\x08'
  | 102 => some '\x0c'
  | 110 => some '\n'
  | 114 => some '\r'
  | 116 => some '\t'
  | _ => none

/-- The character of an escape without its backslash, and what follows it. -/
def escape? : Text → Option (Char × Text)
  | 117 :: i :: j :: k :: l :: t => some (Char.ofNat (hexNumber [i, j, k, l]), t)
  | e :: t => (marked? e).map (·, t)
  | [] => none

/-- The character that a text in a string begins with, and what follows it. -/
def read? : Text → Option (Char × Text)
  | [] => none
  | b :: t => if b = 92 then escape? t else (Text.Glyph.read? b t).map fun (c, k) => (c, t.drop k)

theorem read_char (c : Char) (x : Text) : read? (char c ++ x) = some (c, x) := by
  unfold char
  -- The seven characters with a letter of their own.
  iterate 7
    split
    · rename_i hc
      rw [hc]
      rfl
  split
  · rename_i hcode
    have hlt : c.toNat < 16 ^ 4 := by
      rcases hcode with hlow | rfl | rfl | rfl | rfl | rfl
      · omega
      all_goals decide
    show some (Char.ofNat (hexNumber (Text.hexDigits 4 c.toNat)), x) = some (c, x)
    rw [hexNumber_hexDigits hlt, Char.ofNat_toNat]
  · rename_i hslash _ _ _ _ _ _
    obtain ⟨lead, rest, hbytes, hread⟩ := Text.Glyph.read_utf8EncodeChar c x
    have hlead : lead ≠ 92 := by
      rintro rfl
      exact hslash (Prod.mk.inj (Option.some.inj hread)).1.symm
    rw [hbytes, List.cons_append, read?, if_neg hlead, hread]
    simp

theorem char_append_inj {c d : Char} {x y : Text} (h : char c ++ x = char d ++ y) :
    c = d ∧ x = y := by
  have hread := read_char c x
  rw [h, read_char] at hread
  obtain ⟨rfl, rfl⟩ := Prod.mk.inj (Option.some.inj hread)
  exact ⟨rfl, rfl⟩

/-- A quote inside a string is escaped. -/
theorem char_append_ne_quote (c : Char) (x y : Text) : char c ++ x ≠ 34 :: y := by
  intro h
  have hread := read_char c x
  rw [h] at hread
  -- Only the quote itself is read as one, but it is written with a backslash.
  obtain ⟨rfl, rfl⟩ := Prod.mk.inj (Option.some.inj hread)
  exact absurd (List.cons.inj h).1 (by decide)

/-! ### Strings -/

theorem flatMap_char_inj {cs ds : List Char} {x y : Text}
    (h : cs.flatMap char ++ 34 :: x = ds.flatMap char ++ 34 :: y) : cs = ds ∧ x = y := by
  induction cs generalizing ds with
  | nil =>
    cases ds with
    | nil => exact ⟨rfl, (List.cons.inj h).2⟩
    | cons d ds =>
      rw [List.flatMap_cons, List.append_assoc] at h
      exact absurd h.symm (char_append_ne_quote d _ _)
  | cons c cs ih =>
    rw [List.flatMap_cons, List.append_assoc] at h
    cases ds with
    | nil => exact absurd h (char_append_ne_quote c _ _)
    | cons d ds =>
      rw [List.flatMap_cons, List.append_assoc] at h
      obtain ⟨rfl, hmore⟩ := char_append_inj h
      obtain ⟨rfl, hrest⟩ := ih hmore
      exact ⟨rfl, hrest⟩

/-- A string ends at its second quote and tells its text. -/
theorem string_append_inj {s t x y : Text} (hs : Text.isUtf8 s = true) (ht : Text.isUtf8 t = true)
    (h : string s ++ x = string t ++ y) : s = t ∧ x = y := by
  obtain ⟨cs, rfl⟩ := Text.isUtf8_iff.mp hs
  obtain ⟨ds, rfl⟩ := Text.isUtf8_iff.mp ht
  have hstring : ∀ es z, string (Text.ofChars es) ++ z = 34 :: (es.flatMap char ++ 34 :: z) := by
    intro es z
    rw [string, Text.glyphs_ofChars, List.flatMap_map]
    show 34 :: ((es.flatMap char ++ [34]) ++ z) = _
    rw [List.append_assoc]
    rfl
  rw [hstring, hstring] at h
  obtain ⟨rfl, hrest⟩ := flatMap_char_inj (List.cons.inj h).2
  exact ⟨rfl, hrest⟩

/-! ### Lists of items -/

variable {α : Type}

/-- An item after others. -/
def nextItem (level : Nat) (f : α → Text) (a : α) : Text := "," ++ (newLine level ++ f a)

/-- Items between brackets, each on a line of its own. -/
def enclosed (left right : UInt8) (level : Nat) (f : α → Text) : List α → Text
  | [] => [left, right]
  | a :: as =>
    left :: (newLine (level + 1) ++ (f a ++ (as.flatMap (nextItem (level + 1) f) ++
      (newLine level ++ [right]))))

theorem breaks_newLine (level : Nat) (t : Text) : Breaks isDigit (newLine level ++ t) :=
  Text.breaks_cons (b := 10) rfl _

section Items

variable {R : α → α → Prop} {f : α → Text} {level : Nat} {x y : Text} {as bs : List α}

theorem breaks_items (t : Text) :
    Breaks isDigit (as.flatMap (nextItem (level + 1) f) ++ (newLine level ++ t)) := by
  cases as with
  | nil => exact breaks_newLine level t
  | cons a as => exact Text.breaks_cons (b := 44) rfl _

/-- Items after the first can be told apart if each item can be told from what follows it. -/
theorem items_append_inj
    (h : ∀ a ∈ as, ∀ b ∈ bs, ∀ {u v : Text}, Breaks isDigit u → Breaks isDigit v →
      f a ++ u = f b ++ v → R a b ∧ u = v)
    (heq : as.flatMap (nextItem (level + 1) f) ++ (newLine level ++ x) =
      bs.flatMap (nextItem (level + 1) f) ++ (newLine level ++ y)) :
    List.Forall₂ R as bs ∧ x = y := by
  -- A comma stands in front of every further item, and a line break at the end.
  induction as generalizing bs with
  | nil =>
    cases bs with
    | nil => exact ⟨.nil, List.append_cancel_left heq⟩
    | cons b bs => exact absurd (List.cons.inj heq).1 (by decide)
  | cons a as ih =>
    cases bs with
    | nil => exact absurd (List.cons.inj heq).1 (by decide)
    | cons b bs =>
      simp only [List.flatMap_cons, nextItem, List.append_assoc, List.append_cancel_left_eq] at heq
      obtain ⟨hfirst, hmore⟩ := h a List.mem_cons_self b List.mem_cons_self (breaks_items _)
        (breaks_items _) heq
      obtain ⟨hrest, hend⟩ := ih (fun c hc d hd => h c (List.mem_cons_of_mem a hc) d
        (List.mem_cons_of_mem b hd)) hmore
      exact ⟨.cons hfirst hrest, hend⟩

theorem enclosed_append_inj {left right : UInt8} (hright : right ≠ 10)
    (h : ∀ a ∈ as, ∀ b ∈ bs, ∀ {u v : Text}, Breaks isDigit u → Breaks isDigit v →
      f a ++ u = f b ++ v → R a b ∧ u = v)
    (heq : enclosed left right level f as ++ x = enclosed left right level f bs ++ y) :
    List.Forall₂ R as bs ∧ x = y := by
  cases as with
  | nil =>
    cases bs with
    | nil => exact ⟨.nil, List.append_cancel_left heq⟩
    | cons b bs => exact absurd (List.cons.inj (List.cons.inj heq).2).1 hright
  | cons a as =>
    cases bs with
    | nil => exact absurd (List.cons.inj (List.cons.inj heq).2).1.symm hright
    | cons b bs =>
      simp only [enclosed, List.cons_append, List.append_assoc, List.cons.injEq, true_and,
        List.append_cancel_left_eq] at heq
      obtain ⟨hfirst, hmore⟩ := h a List.mem_cons_self b List.mem_cons_self (breaks_items _)
        (breaks_items _) heq
      obtain ⟨hrest, hend⟩ := items_append_inj (fun c hc d hd => h c (List.mem_cons_of_mem a hc) d
        (List.mem_cons_of_mem b hd)) hmore
      exact ⟨.cons hfirst hrest, (List.cons.inj hend).2⟩

end Items

theorem moreItems_eq (level : Nat) (ds : List Datum) :
    moreItems level ds = ds.flatMap (nextItem level (ofDatum level)) := by
  induction ds with
  | nil => simp [moreItems]
  | cons d ds ih => simp [moreItems, nextItem, ih]

theorem moreFields_eq (level : Nat) (fs : List (Text × Datum)) :
    moreFields level fs = fs.flatMap (nextItem level (ofField level)) := by
  induction fs with
  | nil => simp [moreFields]
  | cons f fs ih => simp [moreFields, nextItem, ih]

theorem ofDatum_list (level : Nat) (ds : List Datum) :
    ofDatum level (.list ds) = enclosed 91 93 level (ofDatum (level + 1)) ds := by
  cases ds with
  | nil =>
    rw [ofDatum]
    rfl
  | cons d ds =>
    rw [ofDatum, moreItems_eq]
    simp only [List.append_assoc]
    rfl

theorem ofDatum_record (level : Nat) (fs : List (Text × Datum)) :
    ofDatum level (.record fs) = enclosed 123 125 level (ofField (level + 1)) fs := by
  cases fs with
  | nil =>
    rw [ofDatum]
    rfl
  | cons f fs =>
    rw [ofDatum, moreFields_eq]
    simp only [List.append_assoc]
    rfl

/-! ### Kinds of data -/

/-- The kinds of data that JSON has. -/
inductive Form where
  | quoted
  | number
  | truth
  | list
  | record
  deriving DecidableEq

/-- The kind of the datum that begins with a byte. -/
def Form.ofByte (b : UInt8) : Form :=
  if b = 34 then .quoted
  else if b = 91 then .list
  else if b = 123 then .record
  else if b = 116 ∨ b = 102 then .truth
  else .number

/-- The kind of a datum. -/
def form : Datum → Form
  | .text _ => .quoted
  | .number _ => .number
  | .truth _ => .truth
  | .instant _ => .quoted
  | .list _ => .list
  | .record _ => .record

theorem Form.ofByte_digit {b : UInt8} (h : isDigit b = true) : ofByte b = number := by
  have hne : ∀ {a : UInt8}, isDigit a = false → b ≠ a := by
    rintro a ha rfl
    exact absurd h (by simp [ha])
  rw [ofByte, if_neg (hne rfl), if_neg (hne rfl), if_neg (hne rfl),
    if_neg (fun hb => hb.elim (hne rfl) (hne rfl))]

/-- The first byte of a datum tells its kind. -/
theorem form_ofDatum (level : Nat) (d : Datum) (x : Text) :
    (ofDatum level d ++ x).head?.map Form.ofByte = some (form d) := by
  cases d with
  | text t => rw [ofDatum]; rfl
  | instant z => rw [ofDatum]; rfl
  | truth b => cases b <;> rw [ofDatum] <;> rfl
  | list ds => cases ds <;> rw [ofDatum] <;> rfl
  | record fs => cases fs <;> rw [ofDatum] <;> rfl
  | number n =>
    rw [ofDatum]
    cases n with
    | ofNat n =>
      obtain ⟨b, t, hcons, hdigit⟩ := Numeral.exists_ofNat_eq_cons n
      rw [Numeral.ofInt, hcons]
      exact congrArg some (Form.ofByte_digit hdigit)
    | negSucc n => rfl

/-! ### Data that say the same -/

/-- The text that a datum is given as. -/
def inscription? : Datum → Option Text
  | .text t => some t
  | .instant z => some z.text
  | _ => none

/-- All texts of a datum are UTF-8. -/
inductive Legible : Datum → Prop
  | text {t : Text} (h : Text.isUtf8 t = true) : Legible (.text t)
  | number (n : Int) : Legible (.number n)
  | truth (b : Bool) : Legible (.truth b)
  | instant {z : ZonedInstant} (h : Text.isUtf8 z.text = true) : Legible (.instant z)
  | list {ds : List Datum} (h : ∀ d ∈ ds, Legible d) : Legible (.list ds)
  | record {fs : List (Text × Datum)} (hname : ∀ f ∈ fs, Text.isUtf8 f.1 = true)
    (h : ∀ f ∈ fs, Legible f.2) : Legible (.record fs)

mutual

/-- Data that differ at most in an instant being given as a text. -/
inductive Alike : Datum → Datum → Prop
  | quoted {d d' : Datum} {t : Text} (h : inscription? d = some t) (h' : inscription? d' = some t) :
    Alike d d'
  | number (n : Int) : Alike (.number n) (.number n)
  | truth (b : Bool) : Alike (.truth b) (.truth b)
  | list {ds ds' : List Datum} (h : List.Forall₂ Alike ds ds') : Alike (.list ds) (.list ds')
  | record {fs fs' : List (Text × Datum)} (h : List.Forall₂ AlikeField fs fs') :
    Alike (.record fs) (.record fs')

/-- Fields of the same name. -/
inductive AlikeField : Text × Datum → Text × Datum → Prop
  | named {name : Text} {d d' : Datum} (h : Alike d d') : AlikeField (name, d) (name, d')

end

theorem ofDatum_of_inscription {d : Datum} {t : Text} (level : Nat) (h : inscription? d = some t) :
    ofDatum level d = string t := by
  cases d with
  | text s =>
    obtain rfl : s = t := Option.some.inj h
    rw [ofDatum]
  | instant z =>
    obtain rfl : z.text = t := Option.some.inj h
    rw [ofDatum]
  | _ => simp [inscription?] at h

theorem Legible.isUtf8_inscription {d : Datum} {t : Text} (hd : Legible d)
    (h : inscription? d = some t) : Text.isUtf8 t = true := by
  cases hd with
  | text hs => exact Option.some.inj h ▸ hs
  | instant hz => exact Option.some.inj h ▸ hz
  | _ => simp [inscription?] at h

theorem exists_inscription {d : Datum} (h : form d = .quoted) : ∃ t, inscription? d = some t := by
  cases d with
  | text t => exact ⟨t, rfl⟩
  | instant z => exact ⟨z.text, rfl⟩
  | _ => simp [form] at h

theorem ofField_append_inj {f f' : Text × Datum} {level : Nat} {x y : Text}
    (hname : Text.isUtf8 f.1 = true) (hname' : Text.isUtf8 f'.1 = true)
    (hvalue : ofDatum level f.2 ++ x = ofDatum level f'.2 ++ y → Alike f.2 f'.2 ∧ x = y)
    (h : ofField level f ++ x = ofField level f' ++ y) : AlikeField f f' ∧ x = y := by
  obtain ⟨name, d⟩ := f
  obtain ⟨name', d'⟩ := f'
  rw [ofField, ofField] at h
  simp only [List.append_assoc] at h
  obtain ⟨hsame, hmore⟩ := string_append_inj hname hname' h
  obtain ⟨hdata, hrest⟩ := hvalue (List.append_cancel_left hmore)
  obtain rfl : name = name' := hsame
  exact ⟨.named hdata, hrest⟩

/-- The first byte tells which kind of datum follows. -/
theorem form_eq_of_append {d d' : Datum} {level : Nat} {x y : Text}
    (h : ofDatum level d ++ x = ofDatum level d' ++ y) : form d = form d' := by
  have hbyte := form_ofDatum level d x
  rw [h, form_ofDatum] at hbyte
  exact (Option.some.inj hbyte).symm

theorem quoted_append_inj {d d' : Datum} {level : Nat} {x y : Text} (hd : Legible d)
    (hd' : Legible d') (hquoted : form d = .quoted)
    (h : ofDatum level d ++ x = ofDatum level d' ++ y) : Alike d d' ∧ x = y := by
  obtain ⟨s, hs⟩ := exists_inscription hquoted
  obtain ⟨t, ht⟩ := exists_inscription (form_eq_of_append h ▸ hquoted)
  rw [ofDatum_of_inscription level hs, ofDatum_of_inscription level ht] at h
  obtain ⟨rfl, hrest⟩ := string_append_inj (hd.isUtf8_inscription hs) (hd'.isUtf8_inscription ht) h
  exact ⟨.quoted hs ht, hrest⟩

/-- Data of the same JSON say the same, whatever follows them. -/
theorem ofDatum_append_inj {d d' : Datum} {level : Nat} {x y : Text} (hd : Legible d)
    (hd' : Legible d') (hx : Breaks isDigit x) (hy : Breaks isDigit y)
    (h : ofDatum level d ++ x = ofDatum level d' ++ y) : Alike d d' ∧ x = y := by
  -- What follows differs from item to item. In each case the first byte leaves only one kind.
  induction hd generalizing d' level x y with
  | text ht => exact quoted_append_inj (.text ht) hd' rfl h
  | instant hz => exact quoted_append_inj (.instant hz) hd' rfl h
  | number n =>
    have hform := form_eq_of_append h
    cases hd' with
    | number n' =>
      rw [ofDatum, ofDatum] at h
      obtain ⟨rfl, hrest⟩ := Numeral.ofInt_append_inj hx hy h
      exact ⟨.number n, hrest⟩
    | _ => cases hform
  | truth b =>
    have hform := form_eq_of_append h
    cases hd' with
    | truth b' =>
      rw [ofDatum, ofDatum] at h
      obtain rfl : b = b' := by
        cases b <;> cases b' <;> first | rfl | exact absurd (List.cons.inj h).1 (by decide)
      exact ⟨.truth b, List.append_cancel_left h⟩
    | _ => cases hform
  | list hds ih =>
    have hform := form_eq_of_append h
    cases hd' with
    | list hds' =>
      rw [ofDatum_list, ofDatum_list] at h
      obtain ⟨hitems, hrest⟩ := enclosed_append_inj (by decide)
        (fun e he e' he' _ _ hu hv => ih e he (hds' e' he') hu hv) h
      exact ⟨.list hitems, hrest⟩
    | _ => cases hform
  | record hnames hfs ih =>
    have hform := form_eq_of_append h
    cases hd' with
    | record hnames' hfs' =>
      rw [ofDatum_record, ofDatum_record] at h
      obtain ⟨hfields, hrest⟩ := enclosed_append_inj (by decide)
        (fun f hf f' hf' _ _ hu hv => ofField_append_inj (hnames f hf) (hnames' f' hf')
          (ih f hf (hfs' f' hf') hu hv)) h
      exact ⟨.record hfields, hrest⟩
    | _ => cases hform

/-! ### Reading a record -/

/-- The number that a datum is. -/
def number? : Datum → Option Int
  | .number n => some n
  | _ => none

/-- The truth value that a datum is. -/
def truth? : Datum → Option Bool
  | .truth b => some b
  | _ => none

/-- The items of a list. -/
def items : Datum → List Datum
  | .list ds => ds
  | _ => []

/-- The field of a record with a name. -/
def field? (name : Text) : Datum → Option Datum
  | .record fs => fs.lookup name
  | _ => none

/-- The text of a field; an omitted one is empty. -/
def inscribed (name : Text) (d : Datum) : Text := ((field? name d).bind inscription?).getD []

/-- The number of a field. -/
def counted (name : Text) (d : Datum) : Int := ((field? name d).bind number?).getD 0

/-- The truth value of a field; an omitted one is false. -/
def affirmed (name : Text) (d : Datum) : Bool := ((field? name d).bind truth?).getD false

/-- The items of a field. -/
def listed (name : Text) (d : Datum) : List Datum := ((field? name d).map items).getD []

theorem lookup_alike {fs fs' : List (Text × Datum)} (h : List.Forall₂ AlikeField fs fs')
    (name : Text) : Option.Rel Alike (fs.lookup name) (fs'.lookup name) := by
  induction h with
  | nil => exact .none
  | cons hfield _ ih =>
    obtain @⟨first, d, d', hdata⟩ := hfield
    rw [List.lookup_cons, List.lookup_cons]
    split
    · exact .some hdata
    · exact ih

/-- A datum that is given as a text is nothing else. -/
theorem eq_none_of_inscription {d : Datum} {t : Text} (h : inscription? d = some t) :
    number? d = none ∧ truth? d = none ∧ items d = [] ∧ ∀ name, field? name d = none := by
  cases d with
  | text | instant => exact ⟨rfl, rfl, rfl, fun _ => rfl⟩
  | _ => simp [inscription?] at h

namespace Alike

variable {d d' : Datum}

theorem inscription?_eq (h : Alike d d') : inscription? d = inscription? d' := by
  cases h with
  | quoted ht ht' => exact ht.trans ht'.symm
  | _ => rfl

theorem number?_eq (h : Alike d d') : number? d = number? d' := by
  cases h with
  | quoted ht ht' => rw [(eq_none_of_inscription ht).1, (eq_none_of_inscription ht').1]
  | _ => rfl

theorem truth?_eq (h : Alike d d') : truth? d = truth? d' := by
  cases h with
  | quoted ht ht' => rw [(eq_none_of_inscription ht).2.1, (eq_none_of_inscription ht').2.1]
  | _ => rfl

theorem items_alike (h : Alike d d') : List.Forall₂ Alike (items d) (items d') := by
  cases h with
  | quoted ht ht' =>
    rw [(eq_none_of_inscription ht).2.2.1, (eq_none_of_inscription ht').2.2.1]
    exact .nil
  | list hitems => exact hitems
  | _ => exact .nil

theorem field?_alike (h : Alike d d') (name : Text) :
    Option.Rel Alike (field? name d) (field? name d') := by
  cases h with
  | quoted ht ht' =>
    rw [(eq_none_of_inscription ht).2.2.2, (eq_none_of_inscription ht').2.2.2]
    exact .none
  | record hfields => exact lookup_alike hfields name
  | _ => exact .none

/-- What is read in the same way from alike data is read in the same way from their fields. -/
theorem bind_field?_eq {β : Type} {g : Datum → Option β}
    (hg : ∀ {e e' : Datum}, Alike e e' → g e = g e') (h : Alike d d') (name : Text) :
    (field? name d).bind g = (field? name d').bind g := by
  have hfield := h.field?_alike name
  generalize field? name d = o at hfield ⊢
  generalize field? name d' = o' at hfield ⊢
  cases hfield with
  | none => rfl
  | some hvalue => exact hg hvalue

theorem inscribed_eq (h : Alike d d') (name : Text) : inscribed name d = inscribed name d' := by
  rw [inscribed, h.bind_field?_eq inscription?_eq name, inscribed]

theorem counted_eq (h : Alike d d') (name : Text) : counted name d = counted name d' := by
  rw [counted, h.bind_field?_eq number?_eq name, counted]

theorem affirmed_eq (h : Alike d d') (name : Text) : affirmed name d = affirmed name d' := by
  rw [affirmed, h.bind_field?_eq truth?_eq name, affirmed]

theorem listed_alike (h : Alike d d') (name : Text) :
    List.Forall₂ Alike (listed name d) (listed name d') := by
  unfold listed
  have hfield := h.field?_alike name
  generalize field? name d = o at hfield ⊢
  generalize field? name d' = o' at hfield ⊢
  cases hfield with
  | none => exact .nil
  | some hvalue => exact hvalue.items_alike

end Alike

end Gauntlet.Json
