import PerfReport.Number.Arith

/-!
# Averages

The quotient of a total by a number of records, exact or rounded down to a
whole number.
-/

namespace PerfReport

variable {α : Type} [Arith α]

def quotient (sum : α) (n : UInt64) (floor : Bool) : α :=
  let q := sum / Arith.ofCount n
  if floor then Arith.floor q else q

def total (values : List α) : α := values.foldl (· + ·) Arith.zero

end PerfReport
