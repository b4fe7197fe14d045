import Gauntlet.Proofs.Calendar
import Gauntlet.Proofs.Durations
import Gauntlet.Proofs.JsonReading
import Gauntlet.Proofs.WrittenFile
import Gauntlet.Report.File

/-! # JSON reports lose nothing

  Each field of an entry is known from its datum, also if it was left out: an omitted text is
  empty and an omitted mark is false (`StageEntry.eq_of_alike`, `CaseEntry.eq_of_alike`). With the
  reading of JSON, two report files have the same bytes only if the reports say the same in every
  field (`sameFields_iff_bytes`).

  The texts must be UTF-8, since JSON has no other strings: all stray bytes are written alike.
-/

namespace Gauntlet

open Json (Alike inscribed counted affirmed listed)

/-! ### Legible entries -/

/-- The texts of a stage entry are UTF-8. -/
structure StageEntry.Legible (e : StageEntry) : Prop where
  stage : Text.isUtf8 e.stage = true
  command : Text.isUtf8 e.command = true
  error : Text.isUtf8 e.error = true

/-- The texts of a case entry are UTF-8. -/
structure CaseEntry.Legible (e : CaseEntry) : Prop where
  source : Text.isUtf8 e.source = true
  name : Text.isUtf8 e.name = true
  status : Text.isUtf8 e.status.word = true
  failedStage : Text.isUtf8 e.failedStage = true
  stages : ∀ s ∈ e.stages, s.Legible

/-- The texts of a report are UTF-8, and its start is a time in UTC in the years 0 to 9999. -/
structure Report.Legible (r : Report) : Prop where
  runId : Text.isUtf8 r.runId = true
  status : Text.isUtf8 r.status.word = true
  start : r.start.Civil
  cases : ∀ c ∈ r.cases, c.Legible

namespace Datum

/-- A list of fields with UTF-8 names and legible values. -/
def LegibleFields (fs : List (Text × Datum)) : Prop :=
  ∀ f ∈ fs, Text.isUtf8 f.1 = true ∧ Json.Legible f.2

theorem LegibleFields.record {fs : List (Text × Datum)} (h : LegibleFields fs) :
    Json.Legible (.record fs) :=
  .record (fun f hf => (h f hf).1) (fun f hf => (h f hf).2)

theorem LegibleFields.append {fs gs : List (Text × Datum)} (hf : LegibleFields fs)
    (hg : LegibleFields gs) : LegibleFields (fs ++ gs) := List.forall_mem_append.mpr ⟨hf, hg⟩

theorem LegibleFields.cons {name : String} {d : Datum} {fs : List (Text × Datum)}
    (hd : Json.Legible d) (h : LegibleFields fs) : LegibleFields (named name d :: fs) :=
  List.forall_mem_cons.mpr ⟨⟨Text.isUtf8_ofString name, hd⟩, h⟩

theorem LegibleFields.nil : LegibleFields [] := List.forall_mem_nil _

theorem LegibleFields.unlessEmpty {name : String} {t : Text} (ht : Text.isUtf8 t = true) :
    LegibleFields (namedUnlessEmpty name t) := by
  unfold namedUnlessEmpty
  split
  · exact .nil
  · exact .cons (.text ht) .nil

end Datum

open Datum (LegibleFields)

theorem StageEntry.Legible.datum {e : StageEntry} (h : e.Legible) : Json.Legible e.datum := by
  have hmark : LegibleFields
      (if e.timedOut then [Datum.named "timed_out" (.truth true)] else []) := by
    split
    · exact .cons (.truth true) .nil
    · exact .nil
  have hstage : LegibleFields [Datum.named "stage" (.text e.stage)] := .cons (.text h.stage) .nil
  have hcode : LegibleFields [Datum.named "exit_code" (.number e.exitCode)] :=
    .cons (.number _) .nil
  have hduration : LegibleFields [Datum.named "duration" (.text e.duration.text)] :=
    .cons (.text e.duration.isUtf8_text) .nil
  exact (((((hstage.append (.unlessEmpty h.command)).append hcode).append hmark).append
    (.unlessEmpty h.error)).append hduration).record

theorem CaseEntry.Legible.datum {e : CaseEntry} (h : e.Legible) : Json.Legible e.datum := by
  have hstages : Json.Legible (.list (e.stages.map StageEntry.datum)) :=
    .list (List.forall_mem_map.mpr fun s hs => (h.stages s hs).datum)
  exact ((LegibleFields.append (.cons (.text h.source) (.cons (.text h.name)
    (.cons (.text h.status) .nil))) (.unlessEmpty h.failedStage)).append
    (.cons (.text e.duration.isUtf8_text) (.cons hstages .nil))).record

theorem Report.Legible.datum {r : Report} (h : r.Legible) : Json.Legible r.datum := by
  have hcases : Json.Legible (.list (r.cases.map CaseEntry.datum)) :=
    .list (List.forall_mem_map.mpr fun c hc => (h.cases c hc).datum)
  exact LegibleFields.record (.cons (.text h.runId) (.cons (.text h.status) (.cons (.number _)
    (.cons (.number _) (.cons (.number _) (.cons (.instant h.start.isUtf8_text)
    (.cons (.text r.duration.isUtf8_text) (.cons hcases .nil))))))))

/-! ### Entries from their data -/

/-- The fields of a stage entry, omitted or not, are those of its datum. -/
theorem StageEntry.fields_datum (e : StageEntry) :
    inscribed "stage" e.datum = e.stage ∧ inscribed "command" e.datum = e.command ∧
    counted "exit_code" e.datum = e.exitCode ∧ affirmed "timed_out" e.datum = e.timedOut ∧
    inscribed "error" e.datum = e.error ∧ inscribed "duration" e.datum = e.duration.text := by
  obtain ⟨stage, command, exitCode, timedOut, error, duration⟩ := e
  cases command <;> cases timedOut <;> cases error <;>
    exact ⟨rfl, rfl, rfl, rfl, rfl, rfl⟩

theorem StageEntry.eq_of_alike {e e' : StageEntry} (h : Alike e.datum e'.datum) : e = e' := by
  obtain ⟨hstage, hcommand, hcode, hmark, herror, hduration⟩ := e.fields_datum
  obtain ⟨hstage', hcommand', hcode', hmark', herror', hduration'⟩ := e'.fields_datum
  rw [h.inscribed_eq, hstage'] at hstage
  rw [h.inscribed_eq, hcommand'] at hcommand
  rw [h.counted_eq, hcode'] at hcode
  rw [h.affirmed_eq, hmark'] at hmark
  rw [h.inscribed_eq, herror'] at herror
  rw [h.inscribed_eq, hduration'] at hduration
  have hlength := Duration.text_inj hduration
  cases e
  cases e'
  simp_all

/-- The fields of a case entry, omitted or not, are those of its datum. -/
theorem CaseEntry.fields_datum (e : CaseEntry) :
    inscribed "source" e.datum = e.source ∧ inscribed "name" e.datum = e.name ∧
    inscribed "status" e.datum = e.status.word ∧
    inscribed "failed_stage" e.datum = e.failedStage ∧
    inscribed "duration" e.datum = e.duration.text ∧
    listed "stages" e.datum = e.stages.map StageEntry.datum := by
  obtain ⟨source, name, status, failedStage, duration, stages⟩ := e
  cases failedStage <;> exact ⟨rfl, rfl, rfl, rfl, rfl, rfl⟩

theorem stages_eq_of_alike {ss ss' : List StageEntry}
    (h : List.Forall₂ Alike (ss.map StageEntry.datum) (ss'.map StageEntry.datum)) : ss = ss' := by
  rw [List.forall₂_map_left_iff, List.forall₂_map_right_iff] at h
  exact List.forall₂_eq_eq_eq ▸ h.imp fun _ _ hs => StageEntry.eq_of_alike hs

theorem Status.eq_of_word_ofBool {b b' : Bool} (h : (ofBool b).word = (ofBool b').word) : b = b' := by
  cases b <;> cases b' <;> first | rfl | exact absurd h (by decide)

/-- An entry of a case that was run, whose status can only be one of two. -/
theorem CaseEntry.eq_of_alike {c c' : CaseResult}
    (h : Alike (ofResult c).datum (ofResult c').datum) : ofResult c = ofResult c' := by
  obtain ⟨hsource, hname, hstatus, hfailed, hduration, hstages⟩ := (ofResult c).fields_datum
  obtain ⟨hsource', hname', hstatus', hfailed', hduration', hstages'⟩ := (ofResult c').fields_datum
  rw [h.inscribed_eq, hsource'] at hsource
  rw [h.inscribed_eq, hname'] at hname
  rw [h.inscribed_eq, hstatus'] at hstatus
  rw [h.inscribed_eq, hfailed'] at hfailed
  rw [h.inscribed_eq, hduration'] at hduration
  have hentries := h.listed_alike "stages"
  rw [hstages, hstages'] at hentries
  have hlength := Duration.text_inj hduration
  have hrecords := stages_eq_of_alike hentries
  have hverdict : (ofResult c').status = (ofResult c).status :=
    congrArg Status.ofBool (Status.eq_of_word_ofBool hstatus)
  generalize ofResult c = e at *
  generalize ofResult c' = e' at *
  cases e
  cases e'
  simp_all

theorem cases_eq_of_alike {cs cs' : List CaseResult}
    (h : List.Forall₂ Alike ((cs.map CaseEntry.ofResult).map CaseEntry.datum)
      ((cs'.map CaseEntry.ofResult).map CaseEntry.datum)) :
    cs.map CaseEntry.ofResult = cs'.map CaseEntry.ofResult := by
  simp only [List.forall₂_map_left_iff, List.forall₂_map_right_iff] at h
  rw [← List.forall₂_eq_eq_eq, List.forall₂_map_left_iff, List.forall₂_map_right_iff]
  exact h.imp fun _ _ hc => CaseEntry.eq_of_alike hc

namespace Report

/-- Reports that say the same in every field. A status is the word that stands for it. -/
structure SameFields (r r' : Report) : Prop where
  runId : r.runId = r'.runId
  status : r.status.word = r'.status.word
  total : r.total = r'.total
  passed : r.passed = r'.passed
  failed : r.failed = r'.failed
  start : r.start = r'.start
  duration : r.duration = r'.duration
  cases : r.cases = r'.cases

theorem SameFields.datum_eq {r r' : Report} (h : r.SameFields r') : r.datum = r'.datum := by
  rw [datum, h.runId, h.status, h.total, h.passed, h.failed, h.start, h.duration, h.cases, datum]

theorem fields_datum (r : Report) :
    inscribed "run_id" r.datum = r.runId ∧ inscribed "status" r.datum = r.status.word ∧
    counted "total" r.datum = r.total ∧ counted "passed" r.datum = r.passed ∧
    counted "failed" r.datum = r.failed ∧ inscribed "start_time" r.datum = r.start.text ∧
    inscribed "duration" r.datum = r.duration.text ∧
    listed "tests" r.datum = r.cases.map CaseEntry.datum :=
  ⟨rfl, rfl, rfl, rfl, rfl, rfl, rfl, rfl⟩

theorem sameFields_of_alike {a b : Run} (ha : (ofRun a).start.Civil) (hb : (ofRun b).start.Civil)
    (h : Alike (ofRun a).datum (ofRun b).datum) : (ofRun a).SameFields (ofRun b) := by
  obtain ⟨hid, hstatus, htotal, hpassed, hfailed, hstart, hduration, hcases⟩ :=
    (ofRun a).fields_datum
  obtain ⟨hid', hstatus', htotal', hpassed', hfailed', hstart', hduration', hcases'⟩ :=
    (ofRun b).fields_datum
  rw [h.inscribed_eq, hid'] at hid
  rw [h.inscribed_eq, hstatus'] at hstatus
  rw [h.counted_eq, htotal'] at htotal
  rw [h.counted_eq, hpassed'] at hpassed
  rw [h.counted_eq, hfailed'] at hfailed
  rw [h.inscribed_eq, hstart'] at hstart
  rw [h.inscribed_eq, hduration'] at hduration
  have hentries := h.listed_alike "tests"
  rw [hcases, hcases'] at hentries
  exact ⟨hid.symm, hstatus.symm, htotal.symm, hpassed.symm, hfailed.symm,
    ha.text_inj hb hstart.symm, Duration.text_inj hduration.symm, cases_eq_of_alike hentries⟩

/-! ### Report files -/

/-- A path that does not ask for YAML. -/
def AsksForJson (p : Text) : Prop :=
  Text.lowerCase (Path.extension p) ≠ ".yaml" ∧ Text.lowerCase (Path.extension p) ≠ ".yml"

instance (p : Text) : Decidable (AsksForJson p) := inferInstanceAs (Decidable (_ ∧ _))

/-- What a report that was written as JSON has put into its file. -/
theorem bytes_of_writeFile {d d' : Disk} {p : Text} {run : Run} (hp : AsksForJson p)
    (hsound : d.Sound) (hstart : d.Starts p) (h : writeFile d p run = (d', none)) :
    d'.bytes? p = some (Json.ofDatum 0 (ofRun run).datum) := by
  have hformat : Format.ofPath p = .json := if_neg (by simp [hp.1, hp.2])
  unfold writeFile at h
  rw [hformat] at h
  split at h
  · simp at h
  rename_i data hdata
  dsimp only at h
  split at h
  · simp at h
  rename_i made hmade
  obtain ⟨hsound', hgrows⟩ := Disk.mkdirs_grows hsound (Path.parent p) 0o755
  rw [hmade] at hsound' hgrows
  split at h
  · simp at h
  rename_i written hwritten
  obtain rfl : written = d' := (Prod.mk.inj h).1
  have hencoded : data = Json.ofDatum 0 (ofRun run).datum := by
    dsimp only [encode] at hdata
    split at hdata
    · simp at hdata
    · exact (Except.ok.inj hdata).symm
  rw [Disk.bytes_written hsound' (hstart.grown hgrows) hwritten, hencoded]

/-- Report files have the same bytes exactly if the reports say the same in every field. -/
theorem sameFields_iff_bytes {d d' e e' : Disk} {p q : Text} {a b : Run} (hp : AsksForJson p)
    (hq : AsksForJson q) (ha : (ofRun a).Legible) (hb : (ofRun b).Legible) (hd : d.Sound)
    (he : e.Sound) (hdp : d.Starts p) (heq : e.Starts q) (hwrite : writeFile d p a = (d', none))
    (hwrite' : writeFile e q b = (e', none)) :
    d'.bytes? p = e'.bytes? q ↔ (ofRun a).SameFields (ofRun b) := by
  rw [bytes_of_writeFile hp hd hdp hwrite, bytes_of_writeFile hq he heq hwrite', Option.some.injEq]
  constructor
  · intro hsame
    obtain ⟨halike, _⟩ := Json.ofDatum_append_inj ha.datum hb.datum (Text.breaks_nil _)
      (Text.breaks_nil _) (congrArg (· ++ []) hsame)
    exact sameFields_of_alike ha.start hb.start halike
  · intro hfields
    rw [hfields.datum_eq]

namespace Sample

/-- An empty disk. -/
def disk : Disk where
  nodes := SortedMap.empty.insert [] (.dir 0o755 ⟨0, 0⟩)
  cwd := none
  now := ⟨1, 0⟩

/-- A run of one case that timed out when a command was run. -/
def run (command : Text) : Run where
  id := "r\t1"
  results := [none, some {
    case := ⟨"/t/<é>.x", "<é>.x"⟩
    verdict := .failedAt .link
    stages := [{ stage := .link, command, exitCode := -1, timedOut := true }] }]
  total := 2
  failed := 1
  start := ⟨⟨951782400, 120000000⟩, 0⟩

theorem legible_run {command : Text} (h : Text.isUtf8 command = true) :
    (ofRun (run command)).Legible := by
  have hword : ∀ s : String, Text.isUtf8 s = true := Text.isUtf8_ofString
  have hstart : ZonedInstant.Civil ⟨⟨951782400, 120000000⟩, 0⟩ :=
    ⟨rfl, by decide, by decide, by decide⟩
  refine ⟨hword _, hword _, hstart, List.forall_mem_singleton.mpr ?_⟩
  refine ⟨hword _, hword _, hword _, hword _, List.forall_mem_singleton.mpr ?_⟩
  exact ⟨hword _, h, rfl⟩

/-- Leaving out the command of a stage is seen in the file, also in one in a new directory. -/
theorem sameFields_iff_bytes_command :
    (writeFile disk "/r.json" (run [])).2 = none ∧ (writeFile disk "/o/r" (run "ld")).2 = none ∧
    (writeFile disk "/r.json" (run [])).1.bytes? "/r.json" ≠
      (writeFile disk "/o/r" (run "ld")).1.bytes? "/o/r" := by
  have hwrite : (writeFile disk "/r.json" (run [])).2.isNone = true := by decide +kernel
  have hwrite' : (writeFile disk "/o/r" (run "ld")).2.isNone = true := by decide +kernel
  have hnone := Option.isNone_iff_eq_none.mp hwrite
  have hnone' := Option.isNone_iff_eq_none.mp hwrite'
  refine ⟨hnone, hnone', fun hbytes => ?_⟩
  have hfields := (sameFields_iff_bytes (by decide) (by decide) (legible_run rfl)
    (legible_run (by decide)) (by decide) (by decide) (.inl rfl) (.inl rfl)
    (Prod.ext rfl hnone) (Prod.ext rfl hnone')).mp hbytes
  exact absurd hfields.cases (by decide)

end Sample

end Report

end Gauntlet
