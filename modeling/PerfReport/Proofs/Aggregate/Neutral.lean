import PerfReport.Proofs.Aggregate.Iterated
import PerfReport.Proofs.Aggregate.Range
import PerfReport.Proofs.Number.Sum

/-!
# Empty parts

An empty aggregate adds nothing to another one, and another one that is merged
into it is all that it then holds. That is not so of any figures whatever: a
sum of negative zero would become positive, an extremum beyond its seed would be
lost, and moments without a count would be dropped. No calls lead to such
figures, as long as the count of rows does not turn over.

* `settledLaw`: what adding and joining keep of a column;
* `Settled.column_neutral`, `Settled.moments_neutral`: one column and its moments;
* `Gathered.emptied_neutral`: all of an aggregate;
* `Gathered.readFrom`: as many records as a reading says it added.
-/

namespace PerfReport

open Extremum (greater lesser)

/-! ## One column -/

/-- Extrema that have absorbed their seeds, a sum that is not negative zero, and
moments that are as they were at first until there is a value. -/
structure Settled (c : Column Float) (m : Moments Float) (xs : List Float) : Prop
    extends Extrema c m xs where
  sum : c.sum ≠ Binary64.zero true
  moments : xs = [] → m = .fresh

theorem settledLaw : ColumnLaw Settled where
  fresh := ⟨extremaLaw.fresh, by decide, fun _ => rfl⟩
  add {c m xs} x h := by
    refine ⟨extremaLaw.add x h.toExtrema, ?_, by simp⟩
    intro hzero
    exact h.sum (Double.add_eq_negativeZero hzero).1
  merge {c c' m m' xs ys} h h' := by
    refine ⟨extremaLaw.merge h.toExtrema h'.toExtrema, ?_, ?_⟩
    · intro hzero
      exact h.sum (Double.add_eq_negativeZero hzero).1
    · intro hnil
      obtain ⟨hxs, hys⟩ := List.append_eq_nil_iff.mp hnil
      rw [h.moments hxs, h'.moments hys]
      rfl

namespace Settled

variable {c : Column Float} {m : Moments Float} {xs : List Float}

/-- Nothing joined to a column, and a column joined to nothing. -/
theorem column_neutral (h : Settled c m xs) :
    c.merge .fresh = c ∧ Column.fresh.merge c = c := by
  obtain ⟨hright, hleft⟩ := Double.zero_neutral h.sum
  have hmax : greater c.max Arith.bottom = c.max := by
    rw [h.max]
    exact Extremum.foldl_op_seed greater _ xs
  have hmin : lesser c.min Arith.top = c.min := by
    rw [h.min]
    exact Extremum.foldl_op_seed lesser _ xs
  have hmax' : greater Arith.bottom c.max = c.max := (Std.Commutative.comm _ _).trans hmax
  have hmin' : lesser Arith.top c.min = c.min := (Std.Commutative.comm _ _).trans hmin
  rw [Column.merge_eq, Column.merge_eq]
  exact ⟨congr (congrArg₂ Column.mk hleft hmax) hmin,
    congr (congrArg₂ Column.mk hright hmax') hmin'⟩

/-- Moments whose count is zero are dropped, but then there was nothing in
them. -/
theorem moments_neutral (h : Settled c m xs) (hn : xs.length < UInt64.size) :
    m.merge .fresh = m ∧ Moments.fresh.merge m = m := by
  refine ⟨rfl, ?_⟩
  rw [Moments.merge]
  split
  · next hcount =>
    rw [h.count, ← UInt64.toNat_inj, UInt64.toNat_ofNat_of_lt' hn] at hcount
    rw [h.moments (List.length_eq_zero_iff.mp hcount)]
  · rfl

end Settled

namespace Aggregate

/-! ## Exact sums -/

theorem add?_zero (a : Int64) : Int64.add? a 0 = some a ∧ Int64.add? 0 a = some a := by
  have hz : (0 : Int64).toInt = 0 := rfl
  constructor
  · rw [Int64.add?_eq_some_iff, hz]
    omega
  · rw [Int64.add?_eq_some_iff, hz]
    omega

theorem addSums_zeros (i : Nat) (done sums : List Int64) :
    addSums i done sums (List.replicate sums.length 0) = .ok (done.reverse ++ sums) ∧
      addSums i done (List.replicate sums.length 0) sums = .ok (done.reverse ++ sums) := by
  induction sums generalizing i done with
  | nil => simp [addSums]
  | cons s sums ih =>
    obtain ⟨hright, hleft⟩ := add?_zero s
    simp [List.replicate_succ, addSums, hright, hleft, ih]

/-! ## All columns -/

theorem zipWith_replicate {β : Type} {f : β → β → β} {x : β} {ys : List β}
    (h : ∀ y ∈ ys, f y x = y ∧ f x y = y) :
    List.zipWith f ys (List.replicate ys.length x) = ys ∧
      List.zipWith f (List.replicate ys.length x) ys = ys := by
  induction ys with
  | nil => exact ⟨rfl, rfl⟩
  | cons y ys ih =>
    obtain ⟨⟨hright, hleft⟩, hys⟩ := List.forall_mem_cons.mp h
    obtain ⟨ihright, ihleft⟩ := ih hys
    simp [List.replicate_succ, hright, hleft, ihright, ihleft]

variable {agg : Aggregate Float} {records : List Record}

theorem Reflects.columns_neutral (h : agg.Reflects Settled records) :
    ∀ c ∈ agg.columns, c.merge .fresh = c ∧ Column.fresh.merge c = c := by
  intro c hc
  obtain ⟨i, hi, rfl⟩ := List.mem_iff_getElem.mp hc
  obtain ⟨_, m, hcolumn, -, hsettled⟩ := h.exists_column (h.shaped.columns ▸ hi)
  rw [List.getElem?_eq_getElem hi, Option.some.injEq] at hcolumn
  exact hcolumn ▸ hsettled.column_neutral

theorem Reflects.moments_neutral (h : agg.Reflects Settled records)
    (hn : records.length < UInt64.size) :
    ∀ m ∈ agg.moments, m.merge .fresh = m ∧ Moments.fresh.merge m = m := by
  intro m hm
  obtain ⟨i, hi, rfl⟩ := List.mem_iff_getElem.mp hm
  obtain ⟨c, _, -, hmoments, hsettled⟩ := h.exists_column (h.shaped.moments ▸ hi)
  rw [List.getElem?_eq_getElem hi, Option.some.injEq] at hmoments
  exact hmoments ▸ hsettled.moments_neutral ((length_columnValues records i).symm ▸ hn)

/-- The aggregate without records that another one began as. -/
def emptied (agg : Aggregate Float) : Aggregate Float :=
  (fresh agg.arity agg.kind).setFloor agg.floor

/-- An empty aggregate has an exact sum of zero wherever there is one. -/
theorem exact_emptied (h : agg.Shaped) :
    agg.emptied.exact = List.replicate agg.exact.length 0 := by
  show (if agg.kind = .integer then List.replicate agg.arity 0 else []) = _
  rw [h.exact, exactArity]
  split <;> rfl

theorem mergedSums_emptied (h : agg.Shaped) :
    agg.mergedSums [agg.emptied] = .ok agg.exact ∧
      agg.emptied.mergedSums [agg] = .ok agg.exact := by
  obtain ⟨hright, hleft⟩ := addSums_zeros 0 [] agg.exact
  have hzeros := exact_emptied h
  have hkind : agg.emptied.kind = agg.kind := rfl
  rw [mergedSums, mergedSums, hkind]
  split
  · simp [stageSums, hzeros, hright, hleft, bind, Except.bind]
  · next hk =>
    rw [hzeros, h.exact_nil hk]
    exact ⟨rfl, rfl⟩

/-- An empty aggregate into another one, and the other way round. -/
theorem Reflects.emptied_neutral (h : agg.Reflects Settled records)
    (hn : records.length < UInt64.size) :
    agg.merge [.other agg.emptied] = .ok agg ∧ agg.emptied.merge [.other agg] = .ok agg := by
  obtain ⟨hcolumns, hcolumns'⟩ := zipWith_replicate h.columns_neutral
  obtain ⟨hmoments, hmoments'⟩ := zipWith_replicate (h.moments_neutral hn)
  obtain ⟨hsums, hsums'⟩ := mergedSums_emptied h.shaped
  rw [h.shaped.columns] at hcolumns hcolumns'
  rw [h.shaped.moments] at hmoments hmoments'
  have habsorb : (agg.absorb (.other agg.emptied)).withExact agg.exact = agg := by
    show Aggregate.mk agg.arity agg.kind agg.floor (agg.rows + 0)
      (List.zipWith Column.merge agg.columns (List.replicate agg.arity .fresh))
      (List.zipWith Moments.merge agg.moments (List.replicate agg.arity .fresh)) _ = agg
    rw [UInt64.add_zero, hcolumns, hmoments]
  have habsorb' : (agg.emptied.absorb (.other agg)).withExact agg.exact = agg := by
    show Aggregate.mk agg.arity agg.kind agg.floor (0 + agg.rows)
      (List.zipWith Column.merge (List.replicate agg.arity .fresh) agg.columns)
      (List.zipWith Moments.merge (List.replicate agg.arity .fresh) agg.moments) _ = agg
    rw [UInt64.zero_add, hcolumns', hmoments']
  exact ⟨merge_one_iff.mpr ⟨⟨rfl, rfl⟩, _, hsums, habsorb.symm⟩,
    merge_one_iff.mpr ⟨⟨rfl, rfl⟩, _, hsums', habsorb'.symm⟩⟩

/-- **An empty part** changes nothing, and nothing is changed by becoming part of
an empty aggregate. -/
theorem Gathered.emptied_neutral (h : Gathered agg records) (hn : records.length < UInt64.size) :
    agg.merge [.other agg.emptied] = .ok agg ∧ agg.emptied.merge [.other agg] = .ok agg :=
  (h.obeys settledLaw).emptied_neutral hn

/-! ## Readings -/

theorem Gathered.ingest_ok {agg' : Aggregate Float} {line : Text} (h : Gathered agg records)
    (hi : agg.ingest line = .ok agg') : ∃ e : Entry, Gathered agg' (records ++ [e.doubles]) := by
  have hbind := hi
  rw [ingest_eq_enter] at hbind
  obtain ⟨e, hl, -⟩ := bind_eq_ok_iff.mp hbind
  exact ⟨e, h.ingest hl hi⟩

/-- By induction over the lines: every record that is added is counted. -/
theorem Gathered.readLines (h : Gathered agg records) (limit : Int) (overlong : Bool)
    (read added : Nat) (lines : List Text) : ∃ records',
      Gathered (readLines limit overlong agg read added lines).aggregate records' ∧
      records'.length + added =
        records.length + (Aggregate.readLines limit overlong agg read added lines).added := by
  induction lines generalizing agg records read added with
  | nil => exact ⟨records, h, rfl⟩
  | cons line rest ih =>
    rw [Aggregate.readLines]
    split
    · exact ih h _ _
    · cases hi : agg.ingest line with
      | error e => exact ⟨records, h, rfl⟩
      | ok next =>
        obtain ⟨e, hnext⟩ := h.ingest_ok hi
        simp only
        split
        · exact ⟨_, hnext, by simp [Nat.add_right_comm, Nat.add_assoc]⟩
        · obtain ⟨records', hrest, hcount⟩ := ih hnext (read + 1) (added + 1)
          rw [List.length_append, List.length_singleton] at hcount
          exact ⟨records', hrest, by omega⟩

theorem Gathered.readFrom (h : Gathered agg records) (text : Text) (limit : Int) : ∃ records',
    Gathered (agg.readFrom text limit).aggregate records' ∧
      records'.length = records.length + (agg.readFrom text limit).added :=
  h.readLines limit _ 0 0 _

/-- Reading does not change what an aggregate began as. -/
theorem emptied_readFrom (agg : Aggregate Float) (text : Text) (limit : Int) :
    (agg.readFrom text limit).aggregate.emptied = agg.emptied := by
  refine readFrom_invariant (P := fun a => a.emptied = agg.emptied) ?_ agg rfl text limit
  intro a a' line ha hi
  rw [ingest_eq_enter] at hi
  obtain ⟨e, -, he⟩ := bind_eq_ok_iff.mp hi
  obtain ⟨harity, hkind, hfloor⟩ := enter_static he
  rw [← ha, emptied, harity, hkind, hfloor, emptied]

end Aggregate

end PerfReport
