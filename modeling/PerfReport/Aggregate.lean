import PerfReport.Column
import PerfReport.Record
import PerfReport.Stats.Moments
import PerfReport.Stats.Quotient

/-!
# Aggregates

The running state of one run: for every column its figures and its moments,
and the number of accepted records. An aggregate of whole numbers also keeps
the exact column sums, which doubles cannot hold above `2 ^ 53`. An update
that fails changes nothing.
-/

namespace PerfReport

structure Aggregate (α : Type) where
  arity : Nat
  kind : NumericKind
  /-- Means are rounded down. -/
  floor : Bool
  rows : UInt64
  columns : List (Column α)
  moments : List (Moments α)
  /-- One sum a column for whole numbers, none otherwise. -/
  exact : List Int64
  deriving DecidableEq

/-- The sum, unless it leaves the 64-bit range: it has then wrapped around to
the other side of `a`. -/
def Int64.add? (a b : Int64) : Option Int64 :=
  let sum := a + b
  if (0 < b ∧ sum < a) ∨ (b < 0 ∧ a < sum) then none else some sum

namespace Aggregate

variable {α : Type} [Arith α]

def fresh (arity : Nat) (kind : NumericKind) : Aggregate α where
  arity := arity
  kind := kind
  floor := false
  rows := 0
  columns := List.replicate arity Column.fresh
  moments := List.replicate arity Moments.fresh
  exact := if kind = .integer then List.replicate arity 0 else []

/-- There is no aggregate with fewer than no columns. -/
def fresh? (arity : Int) (kind : NumericKind) : Option (Aggregate α) :=
  if arity < 0 then none else some (fresh arity.toNat kind)

def setFloor (agg : Aggregate α) (floor : Bool) : Aggregate α := { agg with floor := floor }

/-! ## Records -/

/-- One more record, whatever the kind. -/
def apply (agg : Aggregate α) (record : List α) : Aggregate α :=
  { agg with
    rows := agg.rows + 1
    columns := List.zipWith Column.add agg.columns record
    moments := List.zipWith Moments.update agg.moments record }

/-- Adds `values` to `sums`, column by column; `index` columns are `done`. -/
def addSums : (index : Nat) → (done : List Int64) → (sums values : List Int64) →
    Except FormatError (List Int64)
  | i, done, s :: sums, v :: values =>
    match Int64.add? s v with
    | some t => addSums (i + 1) (t :: done) sums values
    | none => .error (.overflow i v)
  | _, done, sums, _ => .ok (done.reverse ++ sums)

def addIntegers (agg : Aggregate α) (values : List Int64) : Except FormatError (Aggregate α) := do
  let sums ← addSums 0 [] agg.exact values
  return { agg.apply (values.map Arith.ofWhole) with exact := sums }

/-- The whole numbers of a record; `index` of them are `done`. -/
def wholes : (index : Nat) → (done : List Int64) → List α → Except FormatError (List Int64)
  | _, done, [] => .ok done.reverse
  | i, done, x :: xs =>
    match Arith.toWhole? x with
    | some n => wholes (i + 1) (n :: done) xs
    | none => .error (.badToken i (Arith.write x) .integer)

def add (agg : Aggregate α) (record : List α) : Except FormatError (Aggregate α) :=
  if record.length ≠ agg.arity then .error (.fieldCount agg.arity record.length)
  else if agg.kind = .integer then do
    agg.addIntegers (← wholes 0 [] record)
  else .ok (agg.apply record)

/-- Reads a line as one record. -/
def ingest (agg : Aggregate Float) (line : Text) : Except FormatError (Aggregate Float) :=
  if agg.kind = .integer then do
    agg.addIntegers (← parseIntegers line agg.arity)
  else do
    agg.add (← parseRecord line agg.arity agg.kind)

/-! ## Figures -/

def totals (agg : Aggregate α) : List α := agg.columns.map Column.sum

/-- The exact sums, of whole numbers only. -/
def integerTotals? (agg : Aggregate α) : Option (List Int64) :=
  if agg.kind = .integer then some agg.exact else none

def mean (agg : Aggregate α) : Except Error (List α) :=
  if agg.rows = 0 then .error (.division .mean)
  else .ok (agg.columns.map fun c => quotient c.sum agg.rows agg.floor)

/-- The sample standard deviation of every column. -/
def deviation (agg : Aggregate Float) : Except Error (List Float) :=
  if agg.rows = 0 then .error (.division .deviation)
  else .ok (agg.moments.map Moments.deviation)

/-- The least and the greatest value of every column, once there is one. -/
def range? (agg : Aggregate α) : Option (List α × List α) :=
  if agg.rows = 0 then none
  else some (agg.columns.map Column.min, agg.columns.map Column.max)

end Aggregate

end PerfReport
