import PerfReport.Number.Arith

/-!
# Columns

The running sum, maximum and minimum of one column.
-/

namespace PerfReport

structure Column (α : Type) where
  sum : α
  max : α
  min : α
  deriving DecidableEq

/-- The figures kept of a column. -/
inductive Statistic
  | sum
  | max
  | min
  deriving DecidableEq

def Statistic.all : List Statistic := [.sum, .max, .min]

namespace Column

variable {α : Type} [Arith α]

def fresh : Column α := ⟨Arith.zero, Arith.bottom, Arith.top⟩

/-- `into` with one figure replaced by that of `source` and the value `x`. -/
def apply (s : Statistic) (into source : Column α) (x : α) : Column α :=
  match s with
  | .sum => { into with sum := source.sum + x }
  | .max => { into with max := Arith.greater source.max x }
  | .min => { into with min := Arith.lesser source.min x }

/-- One figure of two parts taken together. -/
def absorb (s : Statistic) (into other : Column α) : Column α :=
  match s with
  | .sum => { into with sum := into.sum + other.sum }
  | .max => { into with max := Arith.greater into.max other.max }
  | .min => { into with min := Arith.lesser into.min other.min }

def add (c : Column α) (x : α) : Column α :=
  Statistic.all.foldl (fun c s => c.apply s c x) c

def merge (c other : Column α) : Column α :=
  Statistic.all.foldl (fun c s => c.absorb s other) c

end Column

end PerfReport
