import PerfReport.Aggregate

/-!
# Snapshots

The archived result of one finished run.
-/

namespace PerfReport

/-! ## Stored doubles -/

/-- What can hold a double that is stored as its 64 bits. -/
class Carrier (α : Type) where
  toBits : α → UInt64
  ofBits : UInt64 → α

/-- Runs compute with doubles. -/
@[default_instance]
instance : Carrier Float := ⟨Float.toBits, Float.ofBits⟩

/-- The bits of a double that is only passed on. There is one indefinite
double, but it has many patterns. -/
structure Pattern where
  bits : UInt64
  deriving DecidableEq

instance : Carrier Pattern := ⟨Pattern.bits, Pattern.mk⟩

/-! ## The archived run -/

structure Snapshot (α : Type := Float) where
  id : UInt64
  /-- Nanoseconds since the start of 1970. -/
  created : Int64
  layout : Text
  title : Text
  sources : List Text
  aggregate : Aggregate α
  deriving DecidableEq

/-- Everything that is kept of one column. -/
structure ColumnState (α : Type := Float) where
  column : Column α
  moments : Moments α
  exact : Int64
  deriving DecidableEq

namespace Aggregate

variable {α : Type}

/-- The columns side by side; without exact sums they count as zero. -/
def columnStates (agg : Aggregate α) : List (ColumnState α) :=
  let exact := if agg.kind = .integer then agg.exact else List.replicate agg.arity 0
  List.zipWith (fun (c, m) e => ⟨c, m, e⟩) (agg.columns.zip agg.moments) exact

/-- The aggregate with these columns. -/
def restore (kind : NumericKind) (floor : Bool) (rows : UInt64) (states : List (ColumnState α)) :
    Aggregate α where
  arity := states.length
  kind := kind
  floor := floor
  rows := rows
  columns := states.map ColumnState.column
  moments := states.map ColumnState.moments
  exact := if kind = .integer then states.map ColumnState.exact else []

end Aggregate

end PerfReport
