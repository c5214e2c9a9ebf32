import PerfReport.Aggregate
import PerfReport.Report.Spec

/-!
# Report cells

One value of a report. A cell of a whole-number total is exact, next to its
double; sums of such cells stay exact until they leave the 64-bit range.
-/

namespace PerfReport

structure Cell where
  value : Float
  exact : Option Int64 := none

namespace Cell

def ofFloat (x : Float) : Cell := ⟨x, none⟩

def ofInteger (n : Int64) : Cell := ⟨n.toFloat, some n⟩

/-- The empty sum. -/
def zero : Cell := ⟨0.0, some 0⟩

def isZero (c : Cell) : Bool :=
  match c.exact with
  | some n => n == 0
  | none => c.value == 0.0

def plus (c d : Cell) : Cell :=
  ⟨c.value + d.value, match c.exact, d.exact with
    | some m, some n => Int64.add? m n
    | _, _ => none⟩

/-- Totals have no decimals; a negative precision asks for the shortest
numeral. -/
def write (spec : ReportSpec) (mode : Mode) (c : Cell) : Text :=
  match c.exact with
  | some n => Text.ofInt n.toInt
  | none =>
    if mode = .raw then Fixed.write 0 c.value
    else if spec.decimals < 0 then Shortest.writePositional c.value
    else Fixed.write spec.decimals.toNat c.value

end Cell

end PerfReport
