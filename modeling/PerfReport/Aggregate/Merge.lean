import PerfReport.Aggregate

/-!
# Merging aggregates

Several aggregates are folded into one, from the left. The receiver may be
among them: it then stands for its own state at that point, except that exact
sums are staged from the state before the merge, so that an overflow leaves
everything as it was.
-/

namespace PerfReport

/-- What is merged: another aggregate, or the receiver once more. -/
inductive Operand (α : Type)
  | self
  | other (agg : Aggregate α)

namespace Operand

def resolve {α : Type} (receiver : Aggregate α) : Operand α → Aggregate α
  | .self => receiver
  | .other agg => agg

end Operand

namespace Aggregate

variable {α : Type} [Arith α]

/-- Same number of columns, same kind. -/
def Compatible (agg other : Aggregate α) : Prop :=
  other.arity = agg.arity ∧ other.kind = agg.kind

instance (agg other : Aggregate α) : Decidable (agg.Compatible other) :=
  inferInstanceAs (Decidable (_ ∧ _))

/-- The first aggregate that does not fit. -/
def checkCompatible (agg : Aggregate α) : List (Aggregate α) → Except FormatError Unit
  | [] => .ok ()
  | o :: os =>
    if agg.Compatible o then agg.checkCompatible os
    else .error (.mismatch o.arity o.kind agg.arity agg.kind)

/-- Adds the sums of every aggregate in turn. -/
def stageSums : (sums : List Int64) → List (Aggregate α) → Except FormatError (List Int64)
  | sums, [] => .ok sums
  | sums, o :: os => do stageSums (← addSums 0 [] sums o.exact) os

/-- The exact sums after a merge; only whole numbers have any. -/
def mergedSums (agg : Aggregate α) (others : List (Aggregate α)) :
    Except FormatError (List Int64) :=
  if agg.kind = .integer then stageSums agg.exact others else .ok agg.exact

/-- Figures, moments and rows of one operand; exact sums stay. -/
def absorb (agg : Aggregate α) (o : Operand α) : Aggregate α :=
  let other := o.resolve agg
  { agg with
    rows := agg.rows + other.rows
    columns := List.zipWith Column.merge agg.columns other.columns
    moments := List.zipWith Moments.merge agg.moments other.moments }

def merge (agg : Aggregate α) (others : List (Operand α)) : Except FormatError (Aggregate α) := do
  let before := others.map (Operand.resolve agg)
  agg.checkCompatible before
  let sums ← agg.mergedSums before
  return { others.foldl absorb agg with exact := sums }

end Aggregate

end PerfReport
