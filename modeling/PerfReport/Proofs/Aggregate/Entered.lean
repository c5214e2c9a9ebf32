import PerfReport.Proofs.Aggregate.InPlace
import PerfReport.Proofs.Aggregate.Reachable
import PerfReport.Proofs.Aggregate.Totals
import PerfReport.Proofs.Number.Conversion
import PerfReport.Proofs.Record

/-!
# Whole numbers entered as doubles

A line of whole numbers may be entered as it was read, or may first be read as
a record of doubles, each of which is tested and converted back. For numbers
that doubles can hold the two ways end in the same sums, and from there on they
are one.

* `holds_ofWhole`: doubles of whole numbers are those numbers;
* `add_ofWhole`: so a record of them is added as the numbers are;
* `addIntegers_cases`: what becomes of any sums;
* `ingest_agrees_with_add`: lines, on values and in place.
-/

namespace PerfReport.Aggregate

open PerfReport.Int64

/-- Numbers up to `2 ^ 53` on either side: doubles can hold all of them. -/
def Holdable (values : List Int64) : Prop :=
  ∀ n ∈ values, -9007199254740992 ≤ n.toInt ∧ n.toInt ≤ 9007199254740992

/-- Looks at the numbers of the list, not at all numbers of 64 bits. -/
instance (values : List Int64) : Decidable (Holdable values) := List.decidableBAll _ values

theorem holds_ofWhole {values : List Int64} (h : Holdable values) :
    (values.map Double.ofWhole).Forall₂ Double.Holds values := by
  rw [Double.forall₂_holds_iff, List.map_map]
  refine List.map_congr_left fun n hn => Double.toWhole?_ofWhole ?_
  obtain ⟨hlow, hhigh⟩ := h n hn
  omega

theorem add_ofWhole {agg : Aggregate Float} {values : List Int64} (hk : agg.kind = .integer)
    (hn : values.length = agg.arity) (h : Holdable values) :
    agg.add (values.map Double.ofWhole) = agg.addIntegers values :=
  add_integer hk (by rw [List.length_map, hn]) (holds_ofWhole h)

/-- The first column whose total would leave the range stops a record. -/
theorem addIntegers_cases {agg : Aggregate Float} {values : List Int64}
    (hlen : agg.exact.length = values.length) :
    (∃ after, agg.addIntegers values = .ok after) ∨
      ∃ i < values.length, ¬ InRange ((agg.exact.getD i 0).toInt + (values.getD i 0).toInt) ∧
        (∀ j < i, InRange ((agg.exact.getD j 0).toInt + (values.getD j 0).toInt)) ∧
        agg.addIntegers values = .error (.overflow i (values.getD i 0)) := by
  cases hadd : agg.addIntegers values with
  | ok after => exact .inl ⟨after, rfl⟩
  | error e =>
    obtain ⟨i, hi, hout, hbefore, rfl⟩ :=
      (addSums_eq_error_iff hlen).mp ((addIntegers_eq_error_iff agg values e).mp hadd)
    exact .inr ⟨i, hi, hout, hbefore, by rw [Nat.zero_add]⟩

/-- **One way or the other.**  A line that spells whole numbers which doubles can
hold, for an aggregate that any calls have led to, is also a record of doubles.
Ingesting the line does what adding the record does, on a value and in place:
both give the same aggregate, or both report the same overflow, in the first
column whose exact total would leave the range, and leave everything as it
was. -/
theorem ingest_agrees_with_add {agg : Aggregate Float} {line : Text} {values : List Int64}
    (h : agg.Reachable) (hk : agg.kind = .integer)
    (hv : parseIntegers line agg.arity = .ok values) (hsmall : Holdable values) :
    ∃ record, parseRecord line agg.arity .integer = .ok record ∧
      ((∃ after, agg.ingest line = .ok after ∧ agg.add record = .ok after ∧
          (InPlace.ingest line).run agg = .ok () after ∧
          (InPlace.add record).run agg = .ok () after) ∨
        ∃ i < agg.arity, ∃ e : FormatError, e = .overflow i (values.getD i 0) ∧
          ¬ InRange ((agg.exact.getD i 0).toInt + (values.getD i 0).toInt) ∧
          (∀ j < i, InRange ((agg.exact.getD j 0).toInt + (values.getD j 0).toInt)) ∧
          agg.ingest line = .error e ∧ agg.add record = .error e ∧
          (InPlace.ingest line).run agg = .error (.refused e) agg ∧
          (InPlace.add record).run agg = .error (.refused e) agg) := by
  have hn := length_parseIntegers hv
  have hline := ingest_integer hk hv
  have hrecord := add_ofWhole hk hn hsmall
  refine ⟨values.map Double.ofWhole, by rw [parseRecord_integer, hv]; rfl, ?_⟩
  rw [InPlace.run_ingest h.shaped, InPlace.run_add h.shaped, hline, hrecord]
  rcases addIntegers_cases ((h.shaped.exact_integer hk).trans hn.symm) with
    ⟨after, hok⟩ | ⟨i, hi, hout, hbefore, herror⟩
  · rw [hok]
    exact .inl ⟨after, rfl, rfl, rfl, rfl⟩
  · rw [herror]
    exact .inr ⟨i, hn ▸ hi, _, rfl, hout, hbefore, rfl, rfl, rfl, rfl⟩

/-- Two columns of whole numbers, the second of them one below the limit. -/
def nearlyFull : Aggregate Float :=
  (Aggregate.fresh 2 .integer).afterCall
    ((Aggregate.fresh 2 .integer).ingest "7 9223372036854775806")

theorem ingest_agrees_with_add_nearlyFull :
    (∃ record after, parseRecord "-3 1" 2 .integer = .ok record ∧
      nearlyFull.ingest "-3 1" = .ok after ∧ nearlyFull.add record = .ok after) ∧
    ∃ record i, parseRecord "-3 2" 2 .integer = .ok record ∧ i < 2 ∧
      (InPlace.ingest "-3 2").run nearlyFull =
        .error (.refused (.overflow i ([-3, 2].getD i 0))) nearlyFull ∧
      (InPlace.add record).run nearlyFull =
        .error (.refused (.overflow i ([-3, 2].getD i 0))) nearlyFull := by
  have h : nearlyFull.Reachable := .ingest _ (.fresh 2 .integer)
  have hkind : nearlyFull.kind = .integer := rfl
  have hone : parseIntegers "-3 1" nearlyFull.arity = .ok [-3, 1] := rfl
  have htwo : parseIntegers "-3 2" nearlyFull.arity = .ok [-3, 2] := rfl
  constructor
  · have hin : ∃ after, nearlyFull.ingest "-3 1" = .ok after := ⟨_, rfl⟩
    obtain ⟨record, hrecord, ⟨after, hi, ha, -⟩ | ⟨i, -, e, -, -, -, hi, -⟩⟩ :=
      ingest_agrees_with_add h hkind hone (by decide)
    · exact ⟨record, after, hrecord, hi, ha⟩
    · obtain ⟨after, hin⟩ := hin
      rw [hi] at hin
      cases hin
  · have hout : ∃ e, nearlyFull.ingest "-3 2" = .error e := ⟨_, rfl⟩
    obtain ⟨record, hrecord, ⟨after, hi, -⟩ | ⟨i, hlt, e, rfl, -, -, -, -, hi, ha⟩⟩ :=
      ingest_agrees_with_add h hkind htwo (by decide)
    · obtain ⟨e, hout⟩ := hout
      rw [hi] at hout
      cases hout
    · exact ⟨record, i, hrecord, hlt, hi, ha⟩

end PerfReport.Aggregate
