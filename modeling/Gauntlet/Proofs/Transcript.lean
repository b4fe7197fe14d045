import Gauntlet.Proofs.LogArea
import Mathlib.Data.List.DropRight

/-! # What a log holds

  The file of a log is described without the texts that the log keeps back: by the output of
  both streams, byte by byte in the order of arrival, cut into parts at the headings.

  - A newline ends a line of its stream, and the line is placed there. It is what the stream
    has said since its last newline in this part (`Output.endedAfter`).
  - The end of a part ends what the streams have left open (`Output.cutOff`).
  - `transcript` puts the parts together. After any requests, also after the log has been
    closed, the file holds the transcript of the requests (`log_holds_transcript`).

  The invariant is `Kept`: between two requests the log keeps back, for each stream, what the
  stream has left open, which has no newline in it. A log that has been closed takes nothing
  more (`Logging.take_closed`).
-/

namespace Gauntlet

open CaseLog (newline)

/-! ### Output -/

/-- The output of both streams, byte by byte in the order of arrival. -/
abbrev Output := List (Channel × UInt8)

namespace Output

/-- A piece of output of a stream. -/
def ofPiece (c : Channel) (piece : Text) : Output := piece.map fun b => (c, b)

/-- What a stream has said. -/
def stream (o : Output) (c : Channel) : Text :=
  o.filterMap fun b => if b.1 = c then some b.2 else none

/-- What a stream has said since its last newline. -/
def leftOpen (o : Output) (c : Channel) : Text := (o.stream c).rtakeWhile (· ≠ newline)

/-- The lines that more output ends, each with its stream, in the order in which their newlines
    arrive. -/
def endedAfter (before : Output) : Output → List (Channel × Text)
  | [] => []
  | b :: more =>
    (if b.2 = newline then [(b.1, before.leftOpen b.1 ++ [newline])] else []) ++
      endedAfter (before ++ [b]) more

/-- The lines that some output ends. -/
def ended (o : Output) : List (Channel × Text) := endedAfter [] o

/-- The line that is left open on a stream, if there is one, with a newline. -/
def cutOffOn (o : Output) (c : Channel) : List (Channel × Text) :=
  if o.leftOpen c = [] then [] else [(c, o.leftOpen c ++ [newline])]

/-- The lines that the end of a part ends. -/
def cutOff (o : Output) : List (Channel × Text) := o.cutOffOn .out ++ o.cutOffOn .err

/-- The lines of a stream among the lines of both. -/
def linesOn (c : Channel) (ls : List (Channel × Text)) : List Text :=
  ls.filterMap fun l => if l.1 = c then some l.2 else none

/-- Lines as they stand in the file: each of them without its escape sequences. -/
def written (ls : List (Channel × Text)) : Text := ls.flatMap fun l => Text.withoutEscapes l.2

/-! ### Streams -/

@[simp] theorem stream_nil (c : Channel) : stream [] c = [] := rfl

theorem stream_append (o o' : Output) (c : Channel) :
    (o ++ o').stream c = o.stream c ++ o'.stream c := by
  simp [stream]

theorem stream_ofPiece (c c' : Channel) (piece : Text) :
    (ofPiece c piece).stream c' = if c = c' then piece else [] := by
  unfold stream ofPiece
  by_cases h : c = c' <;> simp [h]

@[simp] theorem leftOpen_nil (c : Channel) : leftOpen [] c = [] := rfl

theorem newline_notMem_leftOpen (o : Output) (c : Channel) : newline ∉ o.leftOpen c := by
  intro h
  have := List.mem_rtakeWhile_imp h
  simp at this

/-- One more byte goes on with the open line of its stream, or ends it. -/
theorem leftOpen_concat (o : Output) (b : Channel × UInt8) (c : Channel) :
    (o ++ [b]).leftOpen c =
      if b.1 = c then (if b.2 = newline then [] else o.leftOpen c ++ [b.2]) else o.leftOpen c := by
  unfold leftOpen
  rw [stream_append]
  by_cases hc : b.1 = c
  · have hb : stream [b] c = [b.2] := by simp [stream, hc]
    rw [hb, if_pos hc, List.rtakeWhile_concat]
    by_cases hn : b.2 = newline <;> simp [hn]
  · have hb : stream [b] c = [] := by simp [stream, hc]
    rw [hb, if_neg hc, List.append_nil]

/-- Output of one stream leaves the open line of the other as it is. -/
theorem leftOpen_append_ofPiece_ne {c c' : Channel} (h : c ≠ c') (o : Output) (piece : Text) :
    (o ++ ofPiece c piece).leftOpen c' = o.leftOpen c' := by
  unfold leftOpen
  rw [stream_append, stream_ofPiece, if_neg h, List.append_nil]

theorem endedAfter_append (before o o' : Output) :
    endedAfter before (o ++ o') = endedAfter before o ++ endedAfter (before ++ o) o' := by
  induction o generalizing before with
  | nil => simp [endedAfter]
  | cons b more ih => simp [endedAfter, ih]

theorem written_append (ls ls' : List (Channel × Text)) :
    written (ls ++ ls') = written ls ++ written ls' := by
  simp [written]

theorem linesOn_append (c : Channel) (ls ls' : List (Channel × Text)) :
    linesOn c (ls ++ ls') = linesOn c ls ++ linesOn c ls' := by
  simp [linesOn]

/-! ### The lines of a stream -/

/-- A line ends with its only newline. -/
def IsLine (l : Text) : Prop := ∃ body, newline ∉ body ∧ l = body ++ [newline]

theorem isLine_endedAfter (before o : Output) : ∀ l ∈ endedAfter before o, IsLine l.2 := by
  induction o generalizing before with
  | nil => simp [endedAfter]
  | cons b more ih =>
    intro l hl
    rw [endedAfter, List.mem_append] at hl
    rcases hl with hl | hl
    · split at hl
      · rw [List.mem_singleton] at hl
        subst hl
        exact ⟨_, newline_notMem_leftOpen before b.1, rfl⟩
      · simp at hl
    · exact ih _ l hl

theorem isLine_cutOff (o : Output) : ∀ l ∈ o.cutOff, IsLine l.2 := by
  intro l hl
  have hcut : ∃ c, l ∈ o.cutOffOn c := by
    rcases List.mem_append.mp hl with hl | hl
    · exact ⟨.out, hl⟩
    · exact ⟨.err, hl⟩
  obtain ⟨c, hc⟩ := hcut
  unfold cutOffOn at hc
  split at hc
  · simp at hc
  · rw [List.mem_singleton] at hc
    subst hc
    exact ⟨_, newline_notMem_leftOpen o c, rfl⟩

/-- Nothing of a stream is lost: what was open before and what came since is what the lines
    hold and what is open now. -/
theorem flatten_endedAfter (before o : Output) (c : Channel) :
    (linesOn c (endedAfter before o)).flatten ++ (before ++ o).leftOpen c =
      before.leftOpen c ++ o.stream c := by
  induction o generalizing before with
  | nil => simp [endedAfter, linesOn]
  | cons b more ih =>
    have hstream : stream (b :: more) c = stream [b] c ++ stream more c := stream_append [b] more c
    have hrest := ih (before ++ [b])
    rw [List.append_assoc, List.singleton_append] at hrest
    rw [endedAfter, linesOn_append, List.flatten_append, List.append_assoc, hrest, hstream,
      ← List.append_assoc, ← List.append_assoc, leftOpen_concat]
    congr 1
    -- The first byte belongs to the stream or not, and it is a newline or not.
    by_cases hc : b.1 = c
    · by_cases hn : b.2 = newline <;> simp [linesOn, stream, hc, hn]
    · by_cases hn : b.2 = newline <;> simp [linesOn, stream, hc, hn]

/-- The lines of a stream and what it leaves open are all that it has said. -/
theorem flatten_ended (o : Output) (c : Channel) :
    (linesOn c o.ended).flatten ++ o.leftOpen c = o.stream c := by
  have h := flatten_endedAfter [] o c
  rwa [List.nil_append, leftOpen_nil, List.nil_append] at h

/-- The end of a part ends one line of a stream at most. -/
theorem linesOn_cutOff (o : Output) (c : Channel) :
    linesOn c o.cutOff = if o.leftOpen c = [] then [] else [o.leftOpen c ++ [newline]] := by
  unfold cutOff cutOffOn
  rw [linesOn_append]
  cases c <;> split <;> split <;> simp_all [linesOn]

/-! ### Cutting into lines -/

theorem cutLines_of_notMem {t : Text} (h : newline ∉ t) : CaseLog.cutLines t = ([], t) := by
  induction t with
  | nil => rfl
  | cons b t ih =>
    rw [List.mem_cons, not_or] at h
    have hb : ¬ b = newline := fun heq => h.1 heq.symm
    simp [CaseLog.cutLines, ih h.2, hb]

theorem cutLines_line {t : Text} (h : newline ∉ t) (more : Text) :
    CaseLog.cutLines (t ++ newline :: more) =
      ((t ++ [newline]) :: (CaseLog.cutLines more).1, (CaseLog.cutLines more).2) := by
  induction t with
  | nil => simp [CaseLog.cutLines]
  | cons b t ih =>
    rw [List.mem_cons, not_or] at h
    have hb : ¬ b = newline := fun heq => h.1 heq.symm
    simp [CaseLog.cutLines, ih h.2, hb]

/-- Cutting in two goes: what the first cut leaves is put in front of the rest. -/
theorem cutLines_append (t more : Text) :
    CaseLog.cutLines (t ++ more) =
      ((CaseLog.cutLines t).1 ++ (CaseLog.cutLines ((CaseLog.cutLines t).2 ++ more)).1,
        (CaseLog.cutLines ((CaseLog.cutLines t).2 ++ more)).2) := by
  induction t with
  | nil => rfl
  | cons b t ih =>
    rw [List.cons_append, CaseLog.cutLines, CaseLog.cutLines, ih]
    generalize CaseLog.cutLines t = cut at ih ⊢
    obtain ⟨ls, left⟩ := cut
    by_cases hb : b = newline
    · simp [hb]
    · -- The byte goes on with the first line, if there is one in the first cut.
      cases ls with
      | nil => simp [hb, CaseLog.cutLines]
      | cons l ls => simp [hb]

/-- Cutting what a stream has left open and one more piece gives the lines that the piece ends,
    and what it leaves open. -/
theorem cutLines_leftOpen (before : Output) (c : Channel) (piece : Text) :
    CaseLog.cutLines (before.leftOpen c ++ piece) =
      ((endedAfter before (ofPiece c piece)).map Prod.snd,
        (before ++ ofPiece c piece).leftOpen c) := by
  induction piece generalizing before with
  | nil =>
    rw [List.append_nil, cutLines_of_notMem (newline_notMem_leftOpen before c)]
    simp [endedAfter, ofPiece]
  | cons b piece ih =>
    have hstep := ih (before ++ [(c, b)])
    rw [leftOpen_concat, if_pos rfl, List.append_assoc, List.singleton_append] at hstep
    show CaseLog.cutLines (before.leftOpen c ++ b :: piece) =
      ((endedAfter before ((c, b) :: ofPiece c piece)).map Prod.snd,
        (before ++ (c, b) :: ofPiece c piece).leftOpen c)
    rw [endedAfter]
    by_cases hb : b = newline
    · subst hb
      rw [if_pos rfl, List.nil_append] at hstep
      rw [cutLines_line (newline_notMem_leftOpen before c), hstep]
      simp
    · rw [if_neg hb, List.append_assoc, List.singleton_append] at hstep
      rw [hstep]
      simp [hb]

end Output

/-! ### Requests -/

/-- What a log is asked for. -/
inductive LogRequest where
  | output (c : Channel) (piece : Text)
  | heading (title : Text)
  | close
  deriving DecidableEq, Repr

namespace LogRequest

/-- The same request with every byte of output in a piece of its own. -/
def bytewise : LogRequest → List LogRequest
  | output c piece => (Output.ofPiece c piece).map fun b => output b.1 [b.2]
  | r => [r]

/-- What a request has a stream say. -/
def said (c : Channel) : LogRequest → Text
  | output c' piece => if c' = c then piece else []
  | _ => []

end LogRequest

/-- A log with the disk and the terminal that it writes to. -/
structure Logging where
  log : CaseLog
  disk : Disk
  terminal : Terminal

namespace Logging

/-- One request. Output goes to the terminal as it is. -/
def take (s : Logging) : LogRequest → Logging
  | .output c piece =>
    let (log, disk, _) := s.log.write s.disk c piece
    { log, disk, terminal := s.terminal.write c piece }
  | .heading title =>
    let (log, disk, _) := s.log.beginSection s.disk title
    { s with log, disk }
  | .close =>
    let (log, disk, _) := s.log.close s.disk
    { s with log, disk }

/-- One request after the other. -/
def takeAll (s : Logging) (rs : List LogRequest) : Logging := rs.foldl take s

theorem takeAll_cons (s : Logging) (r : LogRequest) (rs : List LogRequest) :
    s.takeAll (r :: rs) = (s.take r).takeAll rs := rfl

theorem takeAll_append (s : Logging) (rs rs' : List LogRequest) :
    s.takeAll (rs ++ rs') = (s.takeAll rs).takeAll rs' := by
  simp [takeAll]

end Logging

/-! ### Transcripts -/

/-- What is between two headings. -/
structure LogPart where
  /-- The heading; the first part has none. -/
  title : Option Text
  output : Output
  /-- Another heading, or the end of the log, has followed. -/
  complete : Bool

namespace LogPart

/-- The lines of a part. What is left open is a line only if the part is complete. -/
def lines (p : LogPart) : List (Channel × Text) :=
  p.output.ended ++ if p.complete then p.output.cutOff else []

/-- The heading as it stands in the file. -/
def head (p : LogPart) : Text := p.title.elim [] CaseLog.heading

/-- A part as it stands in the file. -/
def text (p : LogPart) : Text := p.head ++ Output.written p.lines

/-- The requests that make a part. -/
def requests (p : LogPart) : List LogRequest :=
  p.title.toList.map .heading ++ p.output.map fun b => .output b.1 [b.2]

theorem isLine_lines (p : LogPart) (c : Channel) :
    ∀ t ∈ Output.linesOn c p.lines, Output.IsLine t := by
  intro t ht
  obtain ⟨l, hl, hsome⟩ := List.mem_filterMap.mp ht
  have hmem : l.2 = t := by
    split at hsome
    · exact Option.some.inj hsome
    · simp at hsome
  subst hmem
  unfold lines at hl
  rcases List.mem_append.mp hl with hl | hl
  · exact Output.isLine_endedAfter [] p.output l hl
  · split at hl
    · exact Output.isLine_cutOff p.output l hl
    · simp at hl

/-- What a stream leaves open is its last line, once the part is complete. -/
theorem linesOn_lines (p : LogPart) (c : Channel) :
    Output.linesOn c p.lines = Output.linesOn c p.output.ended ++
      if p.complete ∧ p.output.leftOpen c ≠ [] then [p.output.leftOpen c ++ [newline]] else [] := by
  unfold lines
  rw [Output.linesOn_append]
  congr 1
  cases p.complete with
  | false => simp [Output.linesOn]
  | true => simp [Output.linesOn_cutOff]

end LogPart

/-- The parts that requests make, the first of which has begun with a heading and some output.
    Closing the log ends them. -/
def partsFrom (title : Option Text) (before : Output) : List LogRequest → List LogPart
  | [] => [⟨title, before, false⟩]
  | .output c piece :: rs => partsFrom title (before ++ Output.ofPiece c piece) rs
  | .heading t :: rs => ⟨title, before, true⟩ :: partsFrom (some t) [] rs
  | .close :: _ => [⟨title, before, true⟩]

/-- The parts of a log. -/
def parts (rs : List LogRequest) : List LogPart := partsFrom none [] rs

/-- What the file of a log holds after some requests. -/
def transcript (rs : List LogRequest) : Text := (parts rs).flatMap LogPart.text

/-- What requests add to a file, if some output has gone before in this part. -/
def addedBy (before : Output) : List LogRequest → Text
  | [] => []
  | .output c piece :: rs =>
    Output.written (Output.endedAfter before (Output.ofPiece c piece)) ++
      addedBy (before ++ Output.ofPiece c piece) rs
  | .heading t :: rs => Output.written before.cutOff ++ CaseLog.heading t ++ addedBy [] rs
  | .close :: _ => Output.written before.cutOff

/-- The transcript is what the requests add one after the other. -/
theorem flatMap_partsFrom (title : Option Text) (before : Output) (rs : List LogRequest) :
    (partsFrom title before rs).flatMap LogPart.text =
      title.elim [] CaseLog.heading ++ Output.written before.ended ++ addedBy before rs := by
  induction rs generalizing title before with
  | nil => simp [partsFrom, addedBy, LogPart.text, LogPart.head, LogPart.lines]
  | cons r rs ih =>
    cases r with
    | output c piece =>
      have hended : (before ++ Output.ofPiece c piece).ended =
          before.ended ++ Output.endedAfter before (Output.ofPiece c piece) := by
        have h := Output.endedAfter_append [] before (Output.ofPiece c piece)
        rwa [List.nil_append] at h
      rw [partsFrom, ih, addedBy, hended, Output.written_append]
      simp
    | heading t =>
      rw [partsFrom, List.flatMap_cons, ih, addedBy]
      simp [LogPart.text, LogPart.head, LogPart.lines, Output.ended, Output.endedAfter,
        Output.written]
    | close =>
      simp [partsFrom, addedBy, LogPart.text, LogPart.head, LogPart.lines, Output.written_append]

/-- Cutting into parts loses nothing, and moves nothing across a heading: the requests of the
    parts are, byte by byte, the requests up to the close. -/
theorem flatMap_requests_partsFrom (title : Option Text) (before : Output) (rs : List LogRequest) :
    (partsFrom title before rs).flatMap LogPart.requests =
      title.toList.map .heading ++ before.map (fun b => .output b.1 [b.2]) ++
        (rs.takeWhile (· ≠ .close)).flatMap LogRequest.bytewise := by
  induction rs generalizing title before with
  | nil => simp [partsFrom, LogPart.requests]
  | cons r rs ih =>
    cases r with
    | output c piece => simp [partsFrom, ih, LogRequest.bytewise]
    | heading t => simp [partsFrom, ih, LogPart.requests, LogRequest.bytewise]
    | close => simp [partsFrom, LogPart.requests]

/-- All parts are complete, but for the last one of a log that has not been closed. -/
theorem complete_partsFrom (title : Option Text) (before : Output) (rs : List LogRequest) :
    (∀ p ∈ (partsFrom title before rs).dropLast, p.complete = true) ∧
    ∃ p, (partsFrom title before rs).getLast? = some p ∧ (p.complete = true ↔ .close ∈ rs) := by
  induction rs generalizing title before with
  | nil => simp [partsFrom]
  | cons r rs ih =>
    cases r with
    | output c piece => simpa [partsFrom] using ih title (before ++ Output.ofPiece c piece)
    | heading t =>
      obtain ⟨hothers, p, hlast, hp⟩ := ih (some t) []
      have hne : partsFrom (some t) [] rs ≠ [] := by
        intro hnil
        simp [hnil] at hlast
      rw [partsFrom, List.dropLast_cons_of_ne_nil hne]
      refine ⟨?_, p, ?_, by simpa using hp⟩
      · intro q hq
        rcases List.mem_cons.mp hq with rfl | hq
        · rfl
        · exact hothers q hq
      · rw [List.getLast?_cons, hlast]
        rfl
    | close => simp [partsFrom]

/-! ### The log and its file -/

theorem Disk.put_put (d : Disk) (l : Location) (n n' : Node) :
    (d.put l n).put l n' = d.put l n' := by
  refine Disk.ext_node (fun x => ?_) rfl rfl rfl rfl
  rw [Disk.node?_put, Disk.node?_put, Disk.node?_put]
  split <;> rfl

theorem Disk.append_append (d : Disk) (l : Location) (t t' : Text) :
    (d.append l t).append l t' = d.append l (t ++ t') := by
  unfold Disk.append
  cases hnode : d.node? l with
  | none => simp [hnode]
  | some n =>
    cases n with
    | file data m time =>
      dsimp only
      rw [Disk.node?_put, if_pos rfl]
      dsimp only
      rw [Disk.put_put, List.append_assoc]
      rfl
    | dir m time => simp [hnode]
    | link target => simp [hnode]

namespace CaseLog

@[simp] theorem rest_withRest_self (l : CaseLog) (c : Channel) (t : Text) :
    (l.withRest c t).rest c = t := by
  cases c <;> rfl

theorem rest_withRest_ne (l : CaseLog) {c c' : Channel} (h : c ≠ c') (t : Text) :
    (l.withRest c t).rest c' = l.rest c' := by
  cases c <;> cases c' <;> first | rfl | exact absurd rfl h

@[simp] theorem state_withRest (l : CaseLog) (c : Channel) (t : Text) :
    (l.withRest c t).state = l.state := by
  cases c <;> rfl

theorem withRest_withRest (l : CaseLog) (c : Channel) (t t' : Text) :
    (l.withRest c t).withRest c t' = l.withRest c t' := by
  cases c <;> rfl

theorem endLine_eq (l : CaseLog) (d : Disk) (c : Channel) :
    l.endLine d c = (l.withRest c [],
      if l.rest c = [] then d else l.add d (Text.withoutEscapes (l.rest c ++ [newline]))) := by
  unfold endLine
  split
  · rename_i h
    have hsame : l.withRest c [] = l := by
      obtain ⟨path, location, state, outRest, errRest⟩ := l
      cases c <;> simp_all [rest, withRest]
    rw [hsame, if_pos h]
  · rename_i h
    rw [if_neg h]

theorem add_of_ne_opened {l : CaseLog} (h : l.state ≠ .opened) (d : Disk) (t : Text) :
    l.add d t = d := by
  unfold add
  rw [if_neg h]

theorem add_add (l : CaseLog) (d : Disk) (c : Channel) (rest t t' : Text) :
    (l.withRest c rest).add (l.add d t) t' = l.add d (t ++ t') := by
  unfold add
  rw [state_withRest, location_withRest]
  split
  · exact Disk.append_append d l.location t t'
  · rfl

/-- Writing to a log whose file has not been closed underneath. -/
theorem write_eq {l : CaseLog} (h : l.state ≠ .broken) (d : Disk) (c : Channel) (piece : Text) :
    l.write d c piece = (l.withRest c (cutLines (l.rest c ++ piece)).2,
      l.add d ((cutLines (l.rest c ++ piece)).1.flatMap Text.withoutEscapes), none) := by
  unfold write
  split
  · rename_i hstate
    exact absurd hstate h
  · rename_i hcut _
    rw [hcut]

/-- What an open log adds stands at the end of its file, and nothing else changes. -/
theorem node?_add {l : CaseLog} {d : Disk} {text : Text} {m : Nat} {time : Instant}
    (ho : l.state = .opened) (hf : d.node? l.location = some (.file text m time)) (t : Text)
    (x : Location) :
    (l.add d t).node? x =
      if x = l.location then some (.file (text ++ t) m d.now) else d.node? x := by
  unfold add Disk.append
  rw [if_pos ho, hf]
  exact Disk.node?_put d l.location x _

end CaseLog

/-- The file of a log holds a text. -/
def CaseLog.Holds (l : CaseLog) (d : Disk) (text : Text) : Prop :=
  ∃ m time, d.node? l.location = some (.file text m time)

theorem CaseLog.Holds.add {l : CaseLog} {d : Disk} {text : Text} (h : l.Holds d text)
    (ho : l.state = .opened) (t : Text) : l.Holds (l.add d t) (text ++ t) := by
  obtain ⟨m, time, hf⟩ := h
  exact ⟨m, d.now, by rw [node?_add ho hf, if_pos rfl]⟩

/-- A log that is open and has taken some output in this part: it keeps back what the streams
    have left open, and its file holds a text. -/
structure Kept (l : CaseLog) (d : Disk) (before : Output) (text : Text) : Prop where
  opened : l.state = .opened
  rests : ∀ c, l.rest c = before.leftOpen c
  file : l.Holds d text

namespace Kept

variable {l : CaseLog} {d : Disk} {before : Output} {text : Text}

/-- The lines that a piece of output ends are added to the file. -/
theorem write (h : Kept l d before text) (c : Channel) (piece : Text) :
    Kept (l.write d c piece).1 (l.write d c piece).2.1 (before ++ Output.ofPiece c piece)
      (text ++ Output.written (Output.endedAfter before (Output.ofPiece c piece))) := by
  have hcut := Output.cutLines_leftOpen before c piece
  generalize Output.endedAfter before (Output.ofPiece c piece) = ls at hcut ⊢
  have hwrite : l.write d c piece =
      (l.withRest c ((before ++ Output.ofPiece c piece).leftOpen c),
        l.add d (Output.written ls), none) := by
    rw [CaseLog.write_eq (by simp [h.opened]), h.rests, hcut, Output.written, List.flatMap_map]
  rw [hwrite]
  refine ⟨by simpa using h.opened, ?_, ?_⟩
  · intro c'
    by_cases hc : c = c'
    · subst hc
      simp
    · rw [CaseLog.rest_withRest_ne l hc, h.rests, Output.leftOpen_append_ofPiece_ne hc]
  · have hadd := h.file.add h.opened (Output.written ls)
    simpa [CaseLog.Holds, CaseLog.location_withRest] using hadd

/-- The lines that were left open are ended, those of the output stream first. -/
theorem endLines (h : Kept l d before text) :
    Kept (l.endLines d).1 (l.endLines d).2 [] (text ++ Output.written before.cutOff) := by
  have hends : l.endLines d = ((l.withRest .out []).withRest .err [],
      ((l.withRest .out []).endLine (l.endLine d .out).2 .err).2) := by
    simp only [CaseLog.endLines, CaseLog.endLine_eq]
  -- Each of the two lines is added, if there is one.
  have hline : ∀ {l : CaseLog} {d : Disk} {text : Text} (c : Channel), l.state = .opened →
      l.rest c = before.leftOpen c → l.Holds d text →
      l.Holds (l.endLine d c).2 (text ++ Output.written (before.cutOffOn c)) := by
    intro l d text c ho hr hf
    rw [CaseLog.endLine_eq, hr, Output.cutOffOn]
    by_cases hnone : before.leftOpen c = []
    · simpa [hnone, Output.written] using hf
    · simpa [hnone, Output.written] using hf.add ho _
  have hout := hline .out h.opened (h.rests .out) h.file
  have herr := hline (l := l.withRest .out []) (d := (l.endLine d .out).2) .err
    (by simpa using h.opened)
    (by rw [CaseLog.rest_withRest_ne l (by decide), h.rests])
    (by simpa [CaseLog.Holds, CaseLog.location_withRest] using hout)
  rw [hends, Output.cutOff, Output.written_append, ← List.append_assoc]
  refine ⟨by simpa using h.opened, ?_,
    by simpa [CaseLog.Holds, CaseLog.location_withRest] using herr⟩
  intro c
  cases c <;> rfl

/-- A heading ends the part, and begins another one. -/
theorem beginSection (h : Kept l d before text) (title : Text) :
    Kept (l.beginSection d title).1 (l.beginSection d title).2.1 []
      (text ++ Output.written before.cutOff ++ CaseLog.heading title) := by
  have hends := h.endLines
  unfold CaseLog.beginSection
  simp only [hends.opened]
  exact ⟨hends.opened, hends.rests, hends.file.add hends.opened _⟩

/-- Closing the log ends the last part. -/
theorem close (h : Kept l d before text) :
    (l.close d).1.Holds (l.close d).2.1 (text ++ Output.written before.cutOff) := by
  have hends := h.endLines
  unfold CaseLog.close
  simp only [hends.opened]
  exact hends.file

end Kept

/-! ### Logs that have been closed -/

namespace CaseLog

theorem endLines_fst (l : CaseLog) (d : Disk) :
    (l.endLines d).1 = (l.withRest .out []).withRest .err [] := by
  simp [endLines, endLine_eq]

theorem endLines_closed {l : CaseLog} (h : l.state = .closed) (d : Disk) :
    l.endLines d = ((l.withRest .out []).withRest .err [], d) := by
  have hend : ∀ (l : CaseLog) (c : Channel), l.state = .closed →
      l.endLine d c = (l.withRest c [], d) := by
    intro l c hl
    rw [endLine_eq, add_of_ne_opened (by simp [hl])]
    split <;> rfl
  unfold endLines
  rw [hend l .out h]
  exact hend _ .err (by simpa using h)

/-- After closing the log is closed, and keeps nothing back. -/
theorem close_fst (l : CaseLog) (d : Disk) :
    (l.close d).1.state = .closed ∧ ∀ c, (l.close d).1.rest c = [] := by
  have hends := l.endLines_fst d
  unfold close
  dsimp only
  rw [hends]
  split
  · exact ⟨rfl, fun c => by cases c <;> rfl⟩
  · exact ⟨rfl, fun c => by cases c <;> rfl⟩
  · rename_i hstate
    exact ⟨hstate, fun c => by cases c <;> rfl⟩

theorem close_closed {l : CaseLog} (h : l.state = .closed) (hrest : ∀ c, l.rest c = [])
    (d : Disk) : l.close d = (l, d, none) := by
  have hsame : (l.withRest .out []).withRest .err [] = l := by
    obtain ⟨path, location, state, outRest, errRest⟩ := l
    have hout := hrest .out
    have herr := hrest .err
    simp_all [rest, withRest]
  unfold close
  rw [endLines_closed h, hsame]
  simp only [h]

end CaseLog

namespace Logging

/-- A log that has been closed changes nothing on the disk, whatever it is asked for, and stays
    closed. -/
theorem take_closed {s : Logging} (h : s.log.state = .closed) (r : LogRequest) :
    (s.take r).disk = s.disk ∧ (s.take r).log.state = .closed ∧
    (s.take r).log.location = s.log.location := by
  cases r with
  | output c piece =>
    have hbroken : s.log.state ≠ .broken := by simp [h]
    simp [take, CaseLog.write_eq hbroken, CaseLog.add_of_ne_opened, h, CaseLog.location_withRest]
  | heading title =>
    simp [take, CaseLog.beginSection, CaseLog.endLines_closed h, h, CaseLog.location_withRest]
  | close => simp [take, CaseLog.close, CaseLog.endLines_closed h, h, CaseLog.location_withRest]

theorem takeAll_closed {s : Logging} (h : s.log.state = .closed) (rs : List LogRequest) :
    (s.takeAll rs).disk = s.disk ∧ (s.takeAll rs).log.state = .closed ∧
    (s.takeAll rs).log.location = s.log.location := by
  induction rs generalizing s with
  | nil => exact ⟨rfl, h, rfl⟩
  | cons r rs ih =>
    obtain ⟨hdisk, hstate, hplace⟩ := take_closed h r
    obtain ⟨hdisk', hstate', hplace'⟩ := ih hstate
    exact ⟨hdisk'.trans hdisk, hstate', hplace'.trans hplace⟩

theorem take_close_closed (s : Logging) : (s.take .close).log.state = .closed :=
  (s.log.close_fst s.disk).1

theorem take_close_again (s : Logging) :
    (s.take .close).take .close = s.take .close ∧
    ((s.take .close).log.close (s.take .close).disk).2.2 = none := by
  obtain ⟨hstate, hrest⟩ := s.log.close_fst s.disk
  have hagain := CaseLog.close_closed hstate hrest (s.take .close).disk
  constructor
  · unfold take at hagain ⊢
    simp only [hagain]
  · exact congrArg (·.2.2) hagain

/-! ### Every request -/

/-- What becomes of a log that is open. -/
theorem takeAll_holds {s : Logging} {before : Output} {text : Text}
    (h : Kept s.log s.disk before text) (rs : List LogRequest) :
    (s.takeAll rs).log.Holds (s.takeAll rs).disk (text ++ addedBy before rs) := by
  induction rs generalizing s before text with
  | nil => simpa [takeAll, addedBy] using h.file
  | cons r rs ih =>
    rw [takeAll_cons]
    cases r with
    | output c piece =>
      have hkept : Kept (s.take (.output c piece)).log (s.take (.output c piece)).disk _ _ :=
        h.write c piece
      rw [addedBy, ← List.append_assoc]
      exact ih hkept
    | heading title =>
      have hkept : Kept (s.take (.heading title)).log (s.take (.heading title)).disk _ _ :=
        h.beginSection title
      rw [addedBy, ← List.append_assoc, ← List.append_assoc]
      exact ih hkept
    | close =>
      have hfile := h.close
      obtain ⟨hdisk, _, hplace⟩ := takeAll_closed (take_close_closed s) rs
      unfold CaseLog.Holds at hfile ⊢
      rw [hdisk, hplace, addedBy]
      exact hfile

/-- The terminal gets every piece as it is. -/
theorem terminal_takeAll (s : Logging) (rs : List LogRequest) :
    (s.takeAll rs).terminal =
      { out := s.terminal.out ++ rs.flatMap (LogRequest.said .out)
        err := s.terminal.err ++ rs.flatMap (LogRequest.said .err) } := by
  induction rs generalizing s with
  | nil => simp [takeAll]
  | cons r rs ih =>
    rw [takeAll_cons, ih]
    cases r with
    | output c piece => cases c <;> simp [take, Terminal.write, LogRequest.said]
    | heading title => simp [take, LogRequest.said]
    | close => simp [take, LogRequest.said]

/-- A request changes the file of the log and nothing else. -/
theorem take_logged (s : Logging) (r : LogRequest) :
    Logged (some s.log) s.disk (some (s.take r).log) (s.take r).disk := by
  cases r with
  | output c piece => exact s.log.write_logged s.disk c piece
  | heading title => exact s.log.beginSection_logged s.disk title
  | close => exact s.log.close_logged s.disk

theorem takeAll_logged (s : Logging) (rs : List LogRequest) :
    Logged (some s.log) s.disk (some (s.takeAll rs).log) (s.takeAll rs).disk := by
  induction rs generalizing s with
  | nil => exact Logged.refl _ _
  | cons r rs ih => exact (s.take_logged r).trans (ih (s.take r))

/-! ### Cutting output into pieces -/

theorem take_ne_broken {s : Logging} (h : s.log.state ≠ .broken) (r : LogRequest) :
    (s.take r).log.state ≠ .broken := by
  have hends : (s.log.endLines s.disk).1.state = s.log.state := by
    simp [CaseLog.endLines, CaseLog.endLine_eq]
  cases r with
  | output c piece => simpa [take, CaseLog.write_eq h] using h
  | heading title =>
    unfold take CaseLog.beginSection
    dsimp only
    split <;> simp_all
  | close =>
    unfold take CaseLog.close
    dsimp only
    split <;> simp_all

theorem takeAll_ne_broken {s : Logging} (h : s.log.state ≠ .broken) (rs : List LogRequest) :
    (s.takeAll rs).log.state ≠ .broken := by
  induction rs generalizing s with
  | nil => exact h
  | cons r rs ih => exact ih (take_ne_broken h r)

/-- Two pieces of one stream, one right after the other, are one piece. -/
theorem take_pieces {s : Logging} (h : s.log.state ≠ .broken) (c : Channel) (p q : Text) :
    s.take (.output c (p ++ q)) = (s.take (.output c p)).take (.output c q) := by
  have hnext : (s.take (.output c p)).log.state ≠ .broken := take_ne_broken h _
  have hcut := Output.cutLines_append (s.log.rest c ++ p) q
  rw [List.append_assoc] at hcut
  have hterminal : s.terminal.write c (p ++ q) = (s.terminal.write c p).write c q := by
    cases c <;> simp [Terminal.write]
  unfold take at hnext ⊢
  simp only [CaseLog.write_eq h] at hnext ⊢
  simp only [CaseLog.write_eq hnext, CaseLog.rest_withRest_self, hcut, hterminal,
    List.flatMap_append, CaseLog.withRest_withRest, CaseLog.add_add]

end Logging

/-- A log that has just been opened. -/
theorem kept_of_start {d d' : Disk} {s : LogStore} {run : Text} {case : Case} {l : CaseLog}
    (h : CaseLog.start d s run case = (d', .ok l)) : Kept l d' [] [] := by
  unfold CaseLog.start at h
  split at h
  · simp at h
  split at h
  · simp at h
  dsimp only at h
  split at h
  · simp at h
  · rename_i hcreate
    obtain ⟨_, _, _, ⟨m, hfile⟩, _⟩ := Disk.create_effect hcreate
    simp only [Prod.mk.injEq, Except.ok.injEq] at h
    obtain ⟨rfl, rfl⟩ := h
    refine ⟨rfl, ?_, m, _, hfile⟩
    intro c
    cases c <;> rfl

/-- **What a log holds.** Once the log of a case has been opened, and whatever is then asked of
    it:

    - its file holds the transcript of the requests, and nothing else on the disk changes;
    - the terminal gets the output as it is;
    - the parts of the transcript hold all that was asked for up to the close, in this order;
    - in each part the lines of a stream, with what it leaves open, are all that it has said
      there, and what it leaves open is its last line once the part is complete;
    - nothing changes after the close, and closing is idempotent;
    - it does not matter how output is cut into pieces. -/
theorem log_holds_transcript {d d' : Disk} {s : LogStore} {run : Text} {case : Case} {l : CaseLog}
    (hopen : CaseLog.start d s run case = (d', .ok l)) (terminal : Terminal)
    (rs : List LogRequest) :
    let after := Logging.takeAll ⟨l, d', terminal⟩
    (l.Holds (after rs).disk (transcript rs) ∧
      ∀ x, x ≠ l.location → (after rs).disk.node? x = d'.node? x) ∧
    (after rs).terminal =
      { out := terminal.out ++ rs.flatMap (LogRequest.said .out)
        err := terminal.err ++ rs.flatMap (LogRequest.said .err) } ∧
    ((parts rs).flatMap LogPart.requests =
        (rs.takeWhile (· ≠ .close)).flatMap LogRequest.bytewise ∧
      (∀ p ∈ (parts rs).dropLast, p.complete = true) ∧
      ∃ p, (parts rs).getLast? = some p ∧ (p.complete = true ↔ .close ∈ rs)) ∧
    (∀ p ∈ parts rs, ∀ c,
      (∀ t ∈ Output.linesOn c p.lines, Output.IsLine t) ∧
      (Output.linesOn c p.output.ended).flatten ++ p.output.leftOpen c = p.output.stream c ∧
      Output.linesOn c p.lines = Output.linesOn c p.output.ended ++
        if p.complete ∧ p.output.leftOpen c ≠ [] then [p.output.leftOpen c ++ [newline]] else []) ∧
    (∀ more, (after (rs ++ .close :: more)).disk = (after (rs ++ [.close])).disk) ∧
    (after (rs ++ [.close, .close]) = after (rs ++ [.close]) ∧
      ((after (rs ++ [.close])).log.close (after (rs ++ [.close])).disk).2.2 = none) ∧
    ∀ c p q more, after (rs ++ .output c (p ++ q) :: more) =
      after (rs ++ .output c p :: .output c q :: more) := by
  intro after
  have hkept : Kept l d' [] [] := kept_of_start hopen
  have hlogged := Logging.takeAll_logged ⟨l, d', terminal⟩ rs
  have hlocation : (after rs).log.location = l.location := by
    simpa using hlogged.location
  refine ⟨⟨?_, ?_⟩, ?_, ⟨?_, ?_⟩, ?_, ?_, ⟨?_, ?_⟩, ?_⟩
  · have hholds : (after rs).log.Holds (after rs).disk _ :=
      Logging.takeAll_holds (s := ⟨l, d', terminal⟩) hkept rs
    have htranscript : transcript rs = [] ++ addedBy [] rs := flatMap_partsFrom none [] rs
    unfold CaseLog.Holds at hholds ⊢
    rw [htranscript, ← hlocation]
    exact hholds
  · intro x hx
    refine (hlogged.beyond.node_eq ?_ (Set.notMem_empty x)).symm
    simpa using hx
  · exact Logging.terminal_takeAll ⟨l, d', terminal⟩ rs
  · exact flatMap_requests_partsFrom none [] rs
  · exact complete_partsFrom none [] rs
  · intro p _ c
    exact ⟨p.isLine_lines c, Output.flatten_ended p.output c, p.linesOn_lines c⟩
  · intro more
    show (Logging.takeAll _ _).disk = (Logging.takeAll _ _).disk
    rw [Logging.takeAll_append, Logging.takeAll_append, Logging.takeAll_cons]
    exact (Logging.takeAll_closed (Logging.take_close_closed _) more).1
  · show Logging.takeAll _ _ = Logging.takeAll _ _
    rw [Logging.takeAll_append, Logging.takeAll_append]
    exact (Logging.take_close_again _).1
  · show ((Logging.takeAll _ _).log.close (Logging.takeAll _ _).disk).2.2 = none
    rw [Logging.takeAll_append]
    exact (Logging.take_close_again _).2
  · intro c p q more
    have hstate : (Logging.takeAll ⟨l, d', terminal⟩ rs).log.state ≠ .broken :=
      Logging.takeAll_ne_broken (by simp [hkept.opened]) rs
    show Logging.takeAll _ _ = Logging.takeAll _ _
    rw [Logging.takeAll_append, Logging.takeAll_append, Logging.takeAll_cons,
      Logging.take_pieces hstate]
    rfl

namespace Sample

/-- A disk with nothing but the root directory. -/
def blank : Disk where
  nodes := SortedMap.empty.insert [] (.dir 0o755 ⟨0, 0⟩)
  cwd := none
  now := ⟨1, 0⟩

/-- Requests in which the streams take turns. An escape sequence is cut in two, lines are left
    open at the heading and at the close, and there is output after the close. -/
def talk : List LogRequest :=
  [.output .out "a\x1b[3", .output .err "e\nf", .output .out "1mb\nc", .heading "link",
    .output .err "g", .output .out "h\n", .close, .output .out "late\n", .close]

theorem log_holds_transcript_of_talk :
    ∃ d l, CaseLog.start blank ⟨"/g"⟩ "r" ⟨"a", "a"⟩ = (d, .ok l) ∧
      l.Holds (Logging.takeAll ⟨l, d, {}⟩ talk).disk "e\nab\nc\nf\n=== link ===\nh\ng\n" ∧
      (Logging.takeAll ⟨l, d, {}⟩ talk).terminal =
        { out := "a\x1b[31mb\nch\nlate\n", err := "e\nfg" } := by
  have hok : (CaseLog.start blank ⟨"/g"⟩ "r" ⟨"a", "a"⟩).2.isOk = true := by decide +kernel
  cases hopen : CaseLog.start blank ⟨"/g"⟩ "r" ⟨"a", "a"⟩ with
  | mk d r =>
    rw [hopen] at hok
    cases r with
    | error f => simp [Except.isOk, Except.toBool] at hok
    | ok l =>
      obtain ⟨⟨hfile, _⟩, hterminal, _⟩ := log_holds_transcript hopen {} talk
      have htext : transcript talk = ("e\nab\nc\nf\n=== link ===\nh\ng\n" : Text) := by
        decide +kernel
      have hout : talk.flatMap (LogRequest.said .out) = ("a\x1b[31mb\nch\nlate\n" : Text) := by
        decide +kernel
      have herr : talk.flatMap (LogRequest.said .err) = ("e\nfg" : Text) := by decide +kernel
      rw [htext] at hfile
      rw [hout, herr] at hterminal
      exact ⟨d, l, rfl, hfile, hterminal⟩

end Sample

end Gauntlet
