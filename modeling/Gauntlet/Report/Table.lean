import Gauntlet.Report.Flow
import Gauntlet.Report.Summary

/-! # The table of a run

  One row per recorded case with its duration, the stage it failed at, its
  status and the detail of the failure, between a heading and the totals. There
  are no borders: every cell is painted on its own ground, with one blank on
  either side. A green theme stands for a run that passed, a red one for others.
-/

namespace Gauntlet.Report

open Text

/-! ### Content -/

/-- A column of the table. -/
structure Column where
  heading : Text
  /-- The most cells it takes; text beyond is set anew. -/
  limit : Option Nat := none
  /-- Data stand at the right. -/
  right : Bool := false

/-- The columns, from left to right. -/
def columns : List Column :=
  [{ heading := "Test", limit := some 50 }, { heading := "Duration", right := true },
   { heading := "Stage" }, { heading := "Status" }, { heading := "Error", limit := some 80 }]

/-- A duration in whole milliseconds, counted in milliseconds below a second. -/
def shownDuration (d : Duration) : Text :=
  if d.toInt < 1000000000 then Numeral.ofInt d.milliseconds ++ "ms"
  else d.cutToMillisecond.text

def markedStatus : Status → Text
  | .pass => "✓ pass"
  | _ => "✗ fail"

def cellsOf (c : CaseResult) : List Text :=
  let (stage, detail) : Text × Text :=
    match c.failedStage? with
    | some r => (r.stage.name, r.detail)
    | none => (if c.verdict.passed then Text.ofString "-" else c.verdict.failedStage, [])
  [c.case.source, shownDuration c.duration, stage, markedStatus c.status, detail]

/-- The rows between the heading and the totals. -/
def tableRows (r : Run) : List (List Text) := r.recorded.map cellsOf

def totals (r : Run) : List Text :=
  ["TOTAL " ++ Numeral.ofInt r.total ++ " (" ++ Numeral.ofInt r.passed ++ " passed, " ++
     Numeral.ofInt r.failed ++ " failed)",
   shownDuration r.duration, [], markedStatus r.status, []]

def tableTitle (r : Run) : Text := "Test Results (" ++ shownDuration r.wallClock ++ ")"

/-! ### Layout -/

/-- The colour codes of the parts of a table. -/
structure Theme where
  title : Text
  heading : Text
  odd : Text := "107;30"
  even : Text := "47;30"
  totals : Text

def green : Theme := { title := "92;100;1", heading := "102;30", totals := "42;30" }

def red : Theme := { title := "91;100;1", heading := "101;30", totals := "41;30" }

def themeOf (r : Run) : Theme := if r.status = .pass then green else red

/-- A column is as wide as its widest line, up to its limit. -/
def columnWidth (c : Column) (cells : List Text) : Nat :=
  let w := (cells.map widest).foldl max 0
  match c.limit with
  | some l => min l w
  | none => w

def fitted (c : Column) (w : Nat) (cell : Text) : List Text :=
  rows (match c.limit with
    | some l => soft l cell
    | none => hard w cell)

/-- How the cells of a row stand and look. -/
structure RowStyle where
  codes : Text
  upper : Bool := false
  right : Column → Bool

def paintedCell (s : RowStyle) (c : Column) (w : Nat) (t : Text) : Text :=
  let t := if s.upper then t.upper else t
  painted s.codes (" " ++ (if s.right c then alignRight w t else alignLeft w t) ++ " ")

/-- The lines of a row; shorter cells are continued by blanks. -/
def rowLines (s : RowStyle) (cols : List (Column × Nat)) (cells : List Text) : List Text :=
  let blocks := cols.zip cells |>.map fun ((c, w), t) => (c, w, fitted c w t)
  let height := (blocks.map fun (_, _, ls) => ls.length).foldl max 0
  (List.range height).map fun k =>
    blocks.flatMap fun (c, w, ls) => paintedCell s c w ((ls[k]?).getD [])

def tableLines (r : Run) : List Text :=
  let theme := themeOf r
  let heading := columns.map Column.heading
  let body := (tableRows r).map fun cells => cells.map settled
  let foot := (totals r).map settled
  let all := heading :: body ++ [foot]
  let cols := (columns.zipIdx).map fun (c, k) =>
    (c, columnWidth c (all.map fun cells => (cells[k]?).getD []))
  let across := (cols.map fun (_, w) => w + 2).foldl (· + ·) 0
  let frame (_ : Column) : Bool := body.isEmpty
  let top := painted theme.title (" " ++ alignLeft (across - 2) (tableTitle r) ++ " ")
  [top] ++
  rowLines { codes := theme.heading, upper := true, right := frame } cols heading ++
  (body.zipIdx.flatMap fun (cells, k) =>
    let codes := if k % 2 = 0 then theme.odd else theme.even
    rowLines { codes, right := Column.right } cols cells) ++
  rowLines { codes := theme.totals, upper := true, right := frame } cols foot

/-- Writes the table: its lines and then the last line break, each if the stream
    takes it. -/
def table (r : Run) (s : Streams) : Streams :=
  { s with out := ((s.out.put (intercalate "\n" (tableLines r))).1.put "\n").1 }

end Gauntlet.Report
