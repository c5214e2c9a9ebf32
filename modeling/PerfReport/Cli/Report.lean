import PerfReport.Aggregate.Merge
import PerfReport.Calendar
import PerfReport.Cli.Invocation
import PerfReport.Config.File
import PerfReport.Reading
import PerfReport.Report.Render
import PerfReport.Snapshot
import PerfReport.Text.Table

/-!
# What commands print

The texts of all reports, computed before anything is printed or archived.
-/

namespace PerfReport.Cli

variable {δ : Type} [Database δ]

/-- A folder can be opened as an input, and fails on its first line. -/
def inputError (path : Text) (e : FileError) : Error :=
  if e.fault = .isDirectory then .within path (.within "reading line 1" (.file e))
  else .within "failed to open input" (.file e)

/-- Reads one input into an aggregate of its own. -/
def readInput (w : World δ) (l : Layout) (path : Text) : Except Error (Aggregate Float) := do
  let bytes ← (w.read path).mapError (inputError path)
  let r := l.newAggregate.readFrom bytes l.records
  match r.error with
  | some e => throw (.within path e)
  | none => return r.aggregate

/-- Adds one more input to what was read before it. -/
def mergeInput (w : World δ) (l : Layout) (agg : Aggregate Float) (path : Text) :
    Except Error (Aggregate Float) := do
  let part ← readInput w l path
  (agg.merge [.other part]).mapError fun e => .within path (.format e)

/-- All inputs in one aggregate. -/
def readInputs (w : World δ) (l : Layout) (paths : List Text) : Except Error (Aggregate Float) :=
  paths.foldlM (mergeInput w l) l.newAggregate

def modeOf (raw : Bool) : Mode := if raw then .raw else .averaged

def line (t : Text) : Text := t ++ [10]

/-! ## Runs -/

/-- A run and the report on it. -/
structure RunReport where
  layout : Layout
  aggregate : Aggregate Float
  text : Text

def meanReport (w : World δ) (c : Config) (o : RunOptions) (inputs : List Text) :
    Except Error RunReport := do
  let l ← c.layout o.layout
  let agg ← readInputs w l inputs
  return ⟨l, agg, ← agg.render (l.spec []) (modeOf o.raw)⟩

/-- The deviations in the form of the report. -/
def deviationText (r : RunReport) : Except Error Text := do
  match (r.layout.spec []).format? (← r.aggregate.deviation) .averaged with
  | some t => return "stddev:\n" ++ t
  | none => throw .missingColumn

def summaryReport (w : World δ) (c : Config) (o : RunOptions) (title input : Text) :
    Except Error RunReport := do
  let l ← c.layout o.layout
  let agg ← readInput w l input
  if agg.rows = 0 then throw (.within input (.format .noRecord))
  return ⟨l, agg, ← agg.render (l.spec title) .raw⟩

/-! ## Archived runs -/

def runName (id : UInt64) : Text := "run " ++ Text.ofNat id.toNat

/-- Summaries are always shown with totals. -/
def showReport (c : Config) (id : UInt64) (raw : Bool) (s : Snapshot) : Except Error Text := do
  let l ← (c.layout s.layout).mapError (.within (runName id))
  s.aggregate.render (l.spec s.title) (modeOf (raw || l.summary))

def historyRow (s : Snapshot) : Text :=
  line <| [9].intercalate [Text.ofNat s.id.toNat, Calendar.write s.created, s.layout, s.title,
    Text.ofNat s.aggregate.rows.toNat, [44].intercalate s.sources]

def historyHeader : Text := line "ID\tCREATED\tLAYOUT\tTITLE\tRECORDS\tSOURCES"

def historyTable (runs : List Snapshot) : Text :=
  Table.layOut (historyHeader ++ runs.flatMap historyRow)

end PerfReport.Cli
