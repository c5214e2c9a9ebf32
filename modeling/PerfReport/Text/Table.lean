import PerfReport.Text.Glyph

/-!
# Tables

Text with tabs, laid out in columns. A tab ends a cell. Every cell that is
ended by a tab is filled with blanks up to the widest one below and above it,
and two more; a column goes only as far as neighbouring lines have a cell in
it. What stands between two bytes `FF` is one piece of text whatever it holds.
-/

namespace PerfReport.Table

structure Cell where
  text : Text
  width : Int

abbrev Line := List Cell

def padding : Int := 2

/-! ## Cells -/

/-- What was read so far; the latest comes first everywhere. -/
structure Reader where
  /-- Groups of lines that do not share columns. -/
  pages : List (List Line) := []
  lines : List Line := []
  cells : Line := []
  text : Text := []
  /-- How many quoted pieces the current cell holds. -/
  quotes : Nat := 0
  inQuote : Bool := false

namespace Reader

def push (r : Reader) (b : UInt8) : Reader := { r with text := b :: r.text }

/-- The marks around a quoted piece have no width. -/
def endCell (r : Reader) : Reader :=
  let text := r.text.reverse
  let cell : Cell := ⟨text, (Text.size text : Int) - 2 * r.quotes⟩
  { r with cells := cell :: r.cells, text := [], quotes := 0 }

def endLine (r : Reader) : Reader :=
  { r with lines := r.cells.reverse :: r.lines, cells := [] }

def endPage (r : Reader) : Reader :=
  { r with pages := r.lines.reverse :: r.pages, lines := [] }

def endQuote (r : Reader) : Reader := { r with quotes := r.quotes + 1, inQuote := false }

def add (r : Reader) (b : UInt8) : Reader :=
  if r.inQuote then
    if b = 0xFF then (r.push b).endQuote else r.push b
  else if b = 0xFF then { r.push b with inQuote := true }
  else if b = 9 || b = 11 then r.endCell
  else if b = 10 then r.endCell.endLine
  else if b = 12 then r.endCell.endLine.endPage
  else r.push b

/-- The pages at the end of the text. -/
def finish (r : Reader) : List (List Line) :=
  let r := if r.text.isEmpty then r else (if r.inQuote then r.endQuote else r).endCell
  r.endLine.endPage.pages.reverse

end Reader

/-! ## Columns -/

/-- A line under way: the cells that have their width, latest first, and those
after them. -/
structure Row where
  done : List Text := []
  rest : Line

namespace Row

/-- The row has a cell in the current column, and one after it. -/
def hasColumn (r : Row) : Bool :=
  match r.rest with
  | _ :: _ :: _ => true
  | _ => false

/-- The width that the current cell asks for. -/
def width (r : Row) : Int :=
  match r.rest with
  | c :: _ => c.width + padding
  | [] => 0

/-- Fills the current cell up to a width and goes on to the next column. -/
def fill (w : Int) (r : Row) : Row :=
  match r.rest with
  | c :: cells => ⟨(c.text ++ List.replicate (w - c.width).toNat 32) :: r.done, cells⟩
  | [] => r

def text (r : Row) : Text := (r.done.reverse ++ r.rest.map Cell.text).flatten

end Row

def columnWidth (rows : List Row) : Int := rows.foldl (fun w r => max w r.width) 0

/-- Places the columns of rows that have the same number of them behind them;
there are at most `fuel` more. -/
def place : (fuel : Nat) → List Row → List Text
  | 0, rows => rows.map Row.text
  | fuel + 1, rows =>
    (rows.splitBy fun a b => a.hasColumn == b.hasColumn).flatMap fun run =>
      if run.any Row.hasColumn then place fuel (run.map (Row.fill (columnWidth run)))
      else run.map Row.text

def placePage (lines : List Line) : List Text :=
  place (lines.foldl (fun n line => max n line.length) 0) (lines.map fun l => { rest := l })

/-- Lays out a text. -/
def layOut (t : Text) : Text :=
  [10].intercalate ((t.foldl Reader.add {}).finish.flatMap placePage)

end PerfReport.Table
