import Gauntlet.Proofs.EscapeSequence
import Gauntlet.Proofs.Transcript

/-! # Stripping line by line strips the whole text

  A log strips each line for itself when its newline arrives, and it gets the output in pieces
  that end anywhere. No escape sequence goes on across a newline, so the lines without their
  escape sequences are the text without its escape sequences (`flatMap_lines`). The lines that a
  stream says in a part are its text, with a newline at the end if the last one is missing
  (`LogPart.flatten_lines`). Hence a section in which one stream speaks holds what is left of its
  whole text, however it was cut into pieces (`section_holds_stripped`).
-/

namespace Gauntlet

open CaseLog (newline)

/-- The text with its last line ended. -/
def Text.lineEnded (t : Text) : Text :=
  if t = [] ∨ t.getLast? = some newline then t else t ++ [newline]

namespace Output

/-- Stripping the lines one by one strips the text that they make up. -/
theorem flatMap_lines {ls : List Text} (h : ∀ l ∈ ls, IsLine l) :
    ls.flatMap Text.withoutEscapes = Text.withoutEscapes ls.flatten := by
  induction ls with
  | nil => rfl
  | cons l ls ih =>
    obtain ⟨body, _, rfl⟩ := h l List.mem_cons_self
    have hrest := ih fun l hl => h l (List.mem_cons_of_mem _ hl)
    have hline : Text.withoutEscapes (body ++ [newline]) =
        Text.withoutEscapes body ++ [newline] := Text.withoutEscapes_newline body []
    rw [List.flatMap_cons, List.flatten_cons, hline, hrest, List.append_assoc, List.append_assoc,
      List.singleton_append, List.singleton_append, Text.withoutEscapes_newline]

/-- A stream leaves nothing open if it has said nothing, or a newline last. -/
theorem leftOpen_eq_nil_iff (o : Output) (c : Channel) :
    o.leftOpen c = [] ↔ o.stream c = [] ∨ (o.stream c).getLast? = some newline := by
  unfold leftOpen
  rcases List.eq_nil_or_concat (o.stream c) with hnil | ⟨front, b, hlast⟩
  · simp [hnil]
  · rw [hlast, List.concat_eq_append, List.rtakeWhile_concat]
    by_cases hb : b = newline <;> simp [hb]

/-- Every line is a line of a stream that has said something. -/
theorem exists_of_mem_endedAfter {before o : Output} {l : Channel × Text}
    (h : l ∈ endedAfter before o) : ∃ b ∈ o, b.1 = l.1 := by
  induction o generalizing before with
  | nil => simp [endedAfter] at h
  | cons b more ih =>
    rw [endedAfter, List.mem_append] at h
    rcases h with h | h
    · split at h
      · obtain rfl := List.mem_singleton.mp h
        exact ⟨b, List.mem_cons_self, rfl⟩
      · simp at h
    · obtain ⟨b', hb', hl⟩ := ih h
      exact ⟨b', List.mem_cons_of_mem _ hb', hl⟩

/-- The end of a part ends a line of a stream that has left one open. -/
theorem leftOpen_of_mem_cutOff {o : Output} {l : Channel × Text} (h : l ∈ o.cutOff) :
    o.leftOpen l.1 ≠ [] := by
  have hcut : ∀ c, l ∈ o.cutOffOn c → o.leftOpen l.1 ≠ [] := by
    intro c hl
    unfold cutOffOn at hl
    split at hl
    · simp at hl
    · rename_i hopen
      obtain rfl := List.mem_singleton.mp hl
      exact hopen
  rcases List.mem_append.mp h with h | h
  · exact hcut .out h
  · exact hcut .err h

/-- The lines of one stream, as they stand in the file. -/
theorem written_of_channel {ls : List (Channel × Text)} {c : Channel} (h : ∀ l ∈ ls, l.1 = c) :
    written ls = (linesOn c ls).flatMap Text.withoutEscapes := by
  induction ls with
  | nil => rfl
  | cons l ls ih =>
    have hl : l.1 = c := h l List.mem_cons_self
    have hrest := ih fun l hl => h l (List.mem_cons_of_mem _ hl)
    unfold written linesOn at hrest ⊢
    simp [hl, hrest]

end Output

/-- The lines of a stream in a part that is complete are its text, with the last line ended. -/
theorem LogPart.flatten_lines {p : LogPart} (h : p.complete = true) (c : Channel) :
    (Output.linesOn c p.lines).flatten = (p.output.stream c).lineEnded := by
  have hended := Output.flatten_ended p.output c
  rw [p.linesOn_lines, List.flatten_append, Text.lineEnded]
  by_cases hopen : p.output.leftOpen c = []
  · rw [if_pos ((Output.leftOpen_eq_nil_iff p.output c).mp hopen)]
    simpa [hopen] using hended
  · rw [if_neg (mt (Output.leftOpen_eq_nil_iff p.output c).mpr hopen), if_pos ⟨h, hopen⟩, ← hended]
    simp

/-- A part in which one stream speaks, as it stands in the file. -/
theorem LogPart.written_lines {p : LogPart} (h : p.complete = true) {c : Channel}
    (honly : ∀ b ∈ p.output, b.1 = c) :
    Output.written p.lines = Text.withoutEscapes (p.output.stream c).lineEnded := by
  have hchannel : ∀ l ∈ p.lines, l.1 = c := by
    intro l hl
    rw [LogPart.lines, if_pos h, List.mem_append] at hl
    rcases hl with hl | hl
    · obtain ⟨b, hb, hl⟩ := Output.exists_of_mem_endedAfter hl
      exact hl ▸ honly b hb
    · -- A stream that says nothing leaves nothing open.
      by_contra hother
      refine Output.leftOpen_of_mem_cutOff hl ((Output.leftOpen_eq_nil_iff _ _).mpr (.inl ?_))
      rw [Output.stream, List.filterMap_eq_nil_iff]
      intro b hb
      rw [honly b hb]
      exact if_neg (Ne.symm hother)
  rw [Output.written_of_channel hchannel, Output.flatMap_lines (p.isLine_lines c),
    p.flatten_lines h c]

/-! ### What requests add -/

/-- Pieces of one stream add the lines that they end together. -/
theorem addedBy_pieces (before : Output) (c : Channel) (pieces : List Text)
    (rs : List LogRequest) :
    addedBy before (pieces.map (.output c) ++ rs) =
      Output.written (Output.endedAfter before (Output.ofPiece c pieces.flatten)) ++
        addedBy (before ++ Output.ofPiece c pieces.flatten) rs := by
  induction pieces generalizing before with
  | nil => simp [Output.ofPiece, Output.endedAfter, Output.written]
  | cons piece pieces ih =>
    have hpiece : Output.ofPiece c (piece :: pieces).flatten =
        Output.ofPiece c piece ++ Output.ofPiece c pieces.flatten := by
      simp [Output.ofPiece]
    rw [List.map_cons, List.cons_append, addedBy, ih, hpiece, Output.endedAfter_append,
      Output.written_append, List.append_assoc, List.append_assoc]

/-- A heading begins afresh. -/
theorem addedBy_heading {before : Output} {rs : List LogRequest} (h : .close ∉ rs) (title : Text)
    (more : List LogRequest) :
    addedBy before (rs ++ .heading title :: more) =
      addedBy before (rs ++ [.heading title]) ++ addedBy [] more := by
  induction rs generalizing before with
  | nil => simp [addedBy]
  | cons r rs ih =>
    rw [List.mem_cons, not_or] at h
    cases r with
    | output c piece => simp [addedBy, ih h.2]
    | heading t => simp [addedBy, ih h.2]
    | close => exact absurd rfl h.1

/-- Requests after which a section has just begun: none, or those that end with a heading. -/
def Begun (rs : List LogRequest) : Prop :=
  rs = [] ∨ ∃ before title, rs = before ++ [.heading title]

theorem addedBy_begun {rs : List LogRequest} (hbegun : Begun rs) (hclose : .close ∉ rs)
    (more : List LogRequest) : addedBy [] (rs ++ more) = addedBy [] rs ++ addedBy [] more := by
  rcases hbegun with rfl | ⟨before, title, rfl⟩
  · simp [addedBy]
  · have hbefore : .close ∉ before := fun h => hclose (List.mem_append_left _ h)
    rw [List.append_assoc, List.singleton_append, addedBy_heading hbefore]

/-- The file of a log that has been opened holds what the requests add. -/
theorem holds_addedBy {d d' : Disk} {s : LogStore} {run : Text} {case : Case} {l : CaseLog}
    (hopen : CaseLog.start d s run case = (d', .ok l)) (terminal : Terminal)
    (rs : List LogRequest) :
    l.Holds (Logging.takeAll ⟨l, d', terminal⟩ rs).disk (addedBy [] rs) := by
  have hholds := Logging.takeAll_holds (s := ⟨l, d', terminal⟩) (kept_of_start hopen) rs
  have hlocation : (Logging.takeAll ⟨l, d', terminal⟩ rs).log.location = l.location := by
    simpa using (Logging.takeAll_logged ⟨l, d', terminal⟩ rs).location
  unfold CaseLog.Holds at hholds ⊢
  rw [← hlocation]
  exact hholds

/-- A file holds one text. -/
theorem CaseLog.Holds.unique {l : CaseLog} {d : Disk} {t t' : Text} (h : l.Holds d t)
    (h' : l.Holds d t') : t = t' := by
  obtain ⟨m, time, hnode⟩ := h
  obtain ⟨m', time', hnode'⟩ := h'
  rw [hnode] at hnode'
  injection hnode' with hfile
  injection hfile

/-- **A section holds the stripped text.** Let one stream of a log speak in a section, in any
    pieces. What the file gains until the section is ended, by a heading or by the close, is its
    whole text with the last line ended and every match of the expression for escape sequences
    deleted, from left to right. All other bytes stay as they are, since reading a text loses
    nothing. -/
theorem section_holds_stripped {d d' : Disk} {s : LogStore} {run : Text} {case : Case}
    {l : CaseLog} (hopen : CaseLog.start d s run case = (d', .ok l)) (terminal : Terminal)
    {rs : List LogRequest} (hbegun : Begun rs) (hclose : .close ∉ rs) (c : Channel)
    (pieces : List Text) :
    let after := Logging.takeAll ⟨l, d', terminal⟩
    let spoken := rs ++ pieces.map (.output c)
    let stripped := Text.ofGlyphs
      (Text.Escape.sequence.strike (Text.glyphs (Text.lineEnded pieces.flatten)))
    (∀ t, Text.ofGlyphs (Text.glyphs t) = t) ∧
    ∃ old, l.Holds (after rs).disk old ∧
      l.Holds (after (spoken ++ [.close])).disk (old ++ stripped) ∧
      ∀ title, l.Holds (after (spoken ++ [.heading title])).disk
        (old ++ stripped ++ CaseLog.heading title) := by
  intro after spoken stripped
  -- The section as a part: all its output is of the one stream.
  let part : LogPart := ⟨none, Output.ofPiece c pieces.flatten, true⟩
  have honly : ∀ b ∈ part.output, b.1 = c := by
    intro b hb
    obtain ⟨x, _, rfl⟩ := List.mem_map.mp hb
    rfl
  have hlines : Output.written part.output.ended ++ Output.written part.output.cutOff =
      stripped := by
    have hwritten := LogPart.written_lines (p := part) rfl honly
    rw [Output.stream_ofPiece, if_pos rfl, Text.withoutEscapes_eq_strike] at hwritten
    rw [← Output.written_append]
    exact hwritten
  have hadded : ∀ more, addedBy [] (spoken ++ more) = addedBy [] rs ++
      (Output.written part.output.ended ++ addedBy part.output more) := by
    intro more
    rw [List.append_assoc, addedBy_begun hbegun hclose, addedBy_pieces]
    rfl
  refine ⟨Text.ofGlyphs_glyphs, addedBy [] rs, holds_addedBy hopen terminal rs, ?_, ?_⟩
  · have htext : addedBy [] (spoken ++ [.close]) = addedBy [] rs ++ stripped := by
      rw [hadded, ← hlines, addedBy]
    rw [← htext]
    exact holds_addedBy hopen terminal (spoken ++ [.close])
  · intro title
    have htext : addedBy [] (spoken ++ [.heading title]) =
        addedBy [] rs ++ stripped ++ CaseLog.heading title := by
      rw [hadded, ← hlines]
      simp [addedBy]
    rw [← htext]
    exact holds_addedBy hopen terminal (spoken ++ [.heading title])

namespace Sample

/-- Pieces that cut an escape sequence, a character and a line. There is a stray byte, and the
    last sequence is not complete. -/
def colours : List Text :=
  ["\x1b[3", ("1mred\x1b[0m " : Text) ++ [0xFF, 0xC3], [0xA9] ++ ("!\n\x1b[" : Text)]

theorem section_holds_stripped_colours :
    ∃ d l, CaseLog.start blank ⟨"/g"⟩ "r" ⟨"a", "a"⟩ = (d, .ok l) ∧
      Begun [.output .out "a", .heading "link"] ∧
      LogRequest.close ∉ [.output .out "a", .heading "link"] ∧
      l.Holds (Logging.takeAll ⟨l, d, {}⟩
          ([.output .out "a", .heading "link"] ++ colours.map (.output .err) ++ [.close])).disk
        (("a\n=== link ===\nred " : Text) ++ [0xFF, 0xC3, 0xA9] ++ ("!\n\x1b[\n" : Text)) := by
  have hok : (CaseLog.start blank ⟨"/g"⟩ "r" ⟨"a", "a"⟩).2.isOk = true := by decide +kernel
  cases hopen : CaseLog.start blank ⟨"/g"⟩ "r" ⟨"a", "a"⟩ with
  | mk d r =>
    rw [hopen] at hok
    cases r with
    | error f => simp [Except.isOk, Except.toBool] at hok
    | ok l =>
      have hbegun : Begun [.output .out "a", .heading "link"] :=
        .inr ⟨[.output .out "a"], "link", rfl⟩
      have hclose : LogRequest.close ∉ [.output .out "a", .heading "link"] := by simp
      obtain ⟨_, old, hold, hend, _⟩ :=
        section_holds_stripped hopen {} hbegun hclose .err colours
      have hbefore : old = ("a\n=== link ===\n" : Text) := by
        have hadded : addedBy [] [.output .out "a", .heading "link"] =
            ("a\n=== link ===\n" : Text) := by decide +kernel
        have hsame := holds_addedBy hopen {} [.output .out "a", .heading "link"]
        rw [hadded] at hsame
        exact hold.unique hsame
      have hstripped : Text.withoutEscapes (Text.lineEnded colours.flatten) =
          ("red " : Text) ++ [0xFF, 0xC3, 0xA9] ++ ("!\n\x1b[\n" : Text) := by decide +kernel
      rw [← Text.withoutEscapes_eq_strike, hstripped, hbefore] at hend
      exact ⟨d, l, rfl, hbegun, hclose, hend⟩

end Sample

end Gauntlet
