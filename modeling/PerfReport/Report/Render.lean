import PerfReport.Report.Cell
import PerfReport.Text.Pad

/-!
# Rendering

The text of a report. Laying out cells fails only if a group names a column
that is not there; a validated specification names none such.
-/

namespace PerfReport

namespace ReportSpec

def cellAt? (cells : List Cell) (column : Int) : Option Cell :=
  if column < 0 then none else cells[column.toNat]?

/-- A group with the cells of its columns. -/
structure Pair where
  group : Group
  left : Cell
  right : Cell

def pair? (cells : List Cell) (g : Group) : Option Pair := do
  return ⟨g, ← cellAt? cells g.left, ← cellAt? cells g.right⟩

/-- A label and a value, each in its column. -/
def labelled (spec : ReportSpec) (mode : Mode) (label : Text) (c : Cell) : Text :=
  label.padRight spec.labelColumn ++ ": " ++ (c.write spec mode).padLeft spec.valueColumn

def pairLine (spec : ReportSpec) (mode : Mode) (p : Pair) : Text :=
  spec.labelled mode p.group.shownLeft p.left ++ "    "
    ++ spec.labelled mode p.group.shownRight p.right

def pairText (spec : ReportSpec) (mode : Mode) (pairs : List Pair) : Text :=
  [10].intercalate (pairs.map (spec.pairLine mode))

/-- The right value over the left one. -/
def ratio (spec : ReportSpec) (mode : Mode) (label : Text) (left right : Cell) : Text :=
  label ++ ": " ++ right.write spec mode ++ "/" ++ left.write spec mode

/-- Groups whose right value is zero are not listed, but they count in the
grand total. -/
def summaryText (spec : ReportSpec) (mode : Mode) (pairs : List Pair) : Text :=
  let listed := pairs.filter fun p => !p.right.isZero
  let left := pairs.foldl (fun c p => c.plus p.left) Cell.zero
  let right := pairs.foldl (fun c p => c.plus p.right) Cell.zero
  let parts := spec.title.padRight spec.titleColumn
    :: listed.map fun p => spec.ratio mode p.group.label p.left p.right
  [32].intercalate (parts ++ if spec.total then [spec.ratio mode "total" left right] else [])

def layOut? (spec : ReportSpec) (cells : List Cell) (mode : Mode) : Option Text := do
  let pairs ← spec.groups.mapM (pair? cells)
  return if spec.summary then spec.summaryText mode pairs else spec.pairText mode pairs

/-- Lays out values that are already computed. -/
def format? (spec : ReportSpec) (values : List Float) (mode : Mode) : Option Text :=
  spec.layOut? (values.map Cell.ofFloat) mode

end ReportSpec

namespace Aggregate

/-- The values that a mode shows. -/
def cells (agg : Aggregate Float) (mode : Mode) : Except Error (List Cell) :=
  if mode = .averaged then do return (← agg.mean).map Cell.ofFloat
  else if mode = .raw then
    match agg.integerTotals? with
    | some totals => .ok (totals.map Cell.ofInteger)
    | none => .ok (agg.totals.map Cell.ofFloat)
  else .error (.unknownMode mode.name)

def render (agg : Aggregate Float) (spec : ReportSpec) (mode : Mode) : Except Error Text := do
  (spec.validate agg.arity).mapError Error.spec
  match spec.layOut? (← agg.cells mode) mode with
  | some text => return text
  | none => throw .missingColumn

end Aggregate

end PerfReport
