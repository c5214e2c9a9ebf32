import PerfReport.Number.Extremum
import PerfReport.Number.Literal
import PerfReport.Number.Shortest

/-!
# The arithmetic of a run

What the totals of a run need of their numbers. Runs compute with doubles;
the laws of totals, means and deviations are those of any exact arithmetic
with the same operations.
-/

namespace PerfReport

class Arith (α : Type) extends Add α, Sub α, Mul α, Div α where
  zero : α
  ofCount : UInt64 → α
  ofWhole : Int64 → α
  /-- The whole number that a value is, if it is one of 64 bits. -/
  toWhole? : α → Option Int64
  /-- The greatest whole number not above a value. -/
  floor : α → α
  greater : α → α → α
  lesser : α → α → α
  /-- What the maximum of no values counts as. -/
  bottom : α
  /-- What the minimum of no values counts as. -/
  top : α
  /-- How a message shows a value. -/
  write : α → Text

namespace Double

/-- The largest finite double. -/
def largest : Float := Float.ofBits 0x7FEFFFFFFFFFFFFF

/-- The double nearest to a whole number; there is one in range for all of 64
bits. -/
def ofWhole (n : Int64) : Float := (Binary64.nearest? (n < 0) n.toInt.natAbs 1).getD 0.0

/-- The whole number that a double is, if it is one of 64 bits; so it is
neither infinite nor indefinite. -/
def toWhole? (x : Float) : Option Int64 := (Binary64.Value.ofFloat x).whole?.bind Int64.ofInt?

/-- The bits of a double, cut to a whole number; the least one stands for what
does not fit. -/
def truncate (bits : UInt64) : Int64 :=
  ((Binary64.Value.ofBits bits.toNat).truncated?.bind Int64.ofInt?).getD Int64.minValue

end Double

instance : Arith Float where
  zero := 0.0
  ofCount := UInt64.toFloat
  ofWhole := Double.ofWhole
  toWhole? := Double.toWhole?
  floor := Float.floor
  greater := Extremum.greater
  lesser := Extremum.lesser
  bottom := -Double.largest
  top := Double.largest
  write := Shortest.writeGeneral

end PerfReport
