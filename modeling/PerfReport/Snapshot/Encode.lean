import PerfReport.Snapshot
import PerfReport.Word

/-!
# Writing snapshots

The bytes of a snapshot: a version, the run id, the creation time, layout,
title and sources, then the shape of the aggregate and its columns. Numbers
are little-endian, texts and lists carry their length in front.
-/

namespace PerfReport.Snapshot

/-- The version that is written. The one before it had no exact sums. -/
def version : UInt8 := 2

def oldVersion : UInt8 := 1

def putU32 (n : Nat) : Text := Word.little 4 n

def putU64 (n : UInt64) : Text := Word.little 8 n.toNat

def putText (t : Text) : Text := putU32 t.length ++ t

/-- The kind's code, cut to a byte. -/
def kindByte (kind : NumericKind) : UInt8 := UInt8.ofNat (kind.code % 256).toNat

variable {α : Type} [Carrier α]

def putFloat (x : α) : Text := putU64 (Carrier.toBits x)

def putColumn (s : ColumnState α) : Text :=
  putFloat s.column.sum ++ putFloat s.column.max ++ putFloat s.column.min
    ++ putU64 s.moments.count ++ putFloat s.moments.mean ++ putFloat s.moments.m2
    ++ putU64 s.exact.toUInt64

def putAggregate (agg : Aggregate α) : Text :=
  putU32 agg.arity ++ [kindByte agg.kind, if agg.floor then 1 else 0] ++ putU64 agg.rows
    ++ agg.columnStates.flatMap putColumn

def encode (s : Snapshot α) : Text :=
  version :: (putU64 s.id ++ putU64 s.created.toUInt64 ++ putText s.layout ++ putText s.title
    ++ putU32 s.sources.length ++ s.sources.flatMap putText ++ putAggregate s.aggregate)

end PerfReport.Snapshot
