import PerfReport.Proofs.Aggregate.Shape
import PerfReport.Proofs.Number.Rational
import PerfReport.Proofs.Number.Whole

/-!
# Exact totals

An aggregate of whole numbers stands for the list of records that went into
it. Its exact sums are the sums of integers over that list: they never wrap
around, because a record or a merge that would carry a total out of the
64-bit range is refused as a whole, and nothing else is refused.

* `addSums_ok`, `addSums_eq_error_iff`: one record more, column by column;
* `stageSums_ok`, `stageSums_error_iff`: several aggregates more, in order;
* `Tallied.addIntegers`, `Tallied.merge`: one step of a run;
* `Denotes.tallied`: every run;
* `integer_totals_exact`: the totals of every run, and what is refused there.
-/

namespace PerfReport

open PerfReport.Int64

/-- The sum of integers over a column. -/
def columnTotal : List (List Int64) → Nat → Int
  | [], _ => 0
  | values :: records, i => (values.getD i 0).toInt + columnTotal records i

theorem columnTotal_append (records records' : List (List Int64)) (i : Nat) :
    columnTotal (records ++ records') i = columnTotal records i + columnTotal records' i := by
  induction records with
  | nil => simp [columnTotal]
  | cons values records ih =>
    simp only [List.cons_append, columnTotal, ih]
    omega

theorem columnTotal_snoc (records : List (List Int64)) (values : List Int64) (i : Nat) :
    columnTotal (records ++ [values]) i = columnTotal records i + (values.getD i 0).toInt := by
  simp [columnTotal_append, columnTotal]

namespace Aggregate

/-! ## Column by column -/

/-- Sums that are accepted are sums of integers. -/
theorem addSums_ok {i : Nat} {done sums values r : List Int64} (hlen : sums.length = values.length)
    (h : addSums i done sums values = .ok r) :
    ∃ ts, r = done.reverse ++ ts ∧
      ∀ k, (ts.getD k 0).toInt = (sums.getD k 0).toInt + (values.getD k 0).toInt := by
  fun_induction addSums i done sums values with
  | case1 i done s sums v values t ht ih =>
    obtain ⟨ts, rfl, hsum⟩ := ih (by simpa using hlen) h
    refine ⟨t :: ts, by simp, ?_⟩
    intro k
    cases k with
    | zero => exact (add?_eq_some_iff s v t).mp ht
    | succ k => exact hsum k
  | case2 i done s sums v values ht => cases h
  | case3 i values done sums hne =>
    cases h
    cases sums with
    | nil => exact ⟨[], rfl, fun k => by simp [List.length_eq_zero_iff.mp hlen.symm]⟩
    | cons s sums =>
      cases values with
      | nil => simp at hlen
      | cons v values => exact (hne s sums v values rfl rfl).elim

theorem addSums_start_ok {sums values r : List Int64} (hlen : sums.length = values.length)
    (h : addSums 0 [] sums values = .ok r) : r.length = sums.length ∧
      ∀ k, (r.getD k 0).toInt = (sums.getD k 0).toInt + (values.getD k 0).toInt := by
  obtain ⟨ts, rfl, hsum⟩ := addSums_ok hlen h
  exact ⟨by simpa using length_addSums h, hsum⟩

/-- The first column whose sum does not fit is named. -/
theorem addSums_eq_error_iff {i : Nat} {done sums values : List Int64} {e : FormatError}
    (hlen : sums.length = values.length) :
    addSums i done sums values = .error e ↔ ∃ k < values.length,
      ¬ InRange ((sums.getD k 0).toInt + (values.getD k 0).toInt) ∧
      (∀ j < k, InRange ((sums.getD j 0).toInt + (values.getD j 0).toInt)) ∧
      e = .overflow (i + k) (values.getD k 0) := by
  induction sums generalizing i done values with
  | nil =>
    cases values with
    | nil => simp [addSums]
    | cons v values => simp at hlen
  | cons s sums ih =>
    cases values with
    | nil => simp at hlen
    | cons v values =>
      rw [addSums]
      cases ha : add? s v with
      | none =>
        have hv := (add?_eq_none_iff s v).mp ha
        simp only [Except.error.injEq]
        constructor
        · intro he
          exact ⟨0, by simp, hv, by simp, he.symm⟩
        · rintro ⟨k, -, -, hbefore, rfl⟩
          cases k with
          | zero => rfl
          | succ k => exact absurd (hbefore 0 (by omega)) hv
      | some t =>
        have hv : InRange (s.toInt + v.toInt) := by
          rw [← (add?_eq_some_iff s v t).mp ha]
          exact inRange_toInt t
        have hindex (k : Nat) : i + 1 + k = i + (k + 1) := by omega
        simp only [ih (by simpa using hlen)]
        constructor
        · rintro ⟨k, hk, hout, hbefore, rfl⟩
          refine ⟨k + 1, by simpa using hk, hout, ?_, by rw [hindex k, List.getD_cons_succ]⟩
          intro j hj
          cases j with
          | zero => exact hv
          | succ j => exact hbefore j (by omega)
        · rintro ⟨k, hk, hout, hbefore, rfl⟩
          cases k with
          | zero => exact absurd hv hout
          | succ k =>
            exact ⟨k, by simpa using hk, hout, fun j hj => hbefore (j + 1) (by omega),
              by rw [hindex k, List.getD_cons_succ]⟩

/-! ## Aggregate by aggregate -/

section Staged

variable {α : Type}

theorem stageSums_ok {sums r : List Int64} {others : List (Aggregate α)}
    (hlen : ∀ o ∈ others, o.exact.length = sums.length) (h : stageSums sums others = .ok r) :
    ∀ i, (r.getD i 0).toInt = (sums.getD i 0).toInt + columnTotal (others.map exact) i := by
  induction others generalizing sums with
  | nil =>
    intro i
    cases h
    simp [columnTotal]
  | cons o os ih =>
    obtain ⟨sums', hs, hr⟩ := bind_eq_ok_iff.mp h
    obtain ⟨hts, hsum⟩ := addSums_start_ok (hlen o (List.mem_cons_self ..)).symm hs
    have hlen' : ∀ p ∈ os, p.exact.length = sums'.length := by
      intro p hp
      rw [hts]
      exact hlen p (List.mem_cons_of_mem _ hp)
    intro i
    rw [ih hlen' hr i, hsum i, List.map_cons, columnTotal]
    omega

/-- The sums are refused as soon as one of them leaves the range, after any
number of aggregates. The induction is on the aggregates still to come: what
they start from is the total so far. -/
theorem stageSums_error_iff {sums : List Int64} {others : List (Aggregate α)}
    (hlen : ∀ o ∈ others, o.exact.length = sums.length) :
    (∃ e, stageSums sums others = .error e) ↔ ∃ k ≤ others.length, ∃ i < sums.length,
      ¬ InRange ((sums.getD i 0).toInt + columnTotal ((others.take k).map exact) i) := by
  induction others generalizing sums with
  | nil =>
    constructor
    · rintro ⟨e, he⟩
      cases he
    · rintro ⟨k, -, i, -, hout⟩
      exact absurd (inRange_toInt _) (by simpa [columnTotal] using hout)
  | cons o os ih =>
    have ho := (hlen o (List.mem_cons_self ..)).symm
    simp only [stageSums, bind_eq_error_iff]
    cases ha : addSums 0 [] sums o.exact with
    | error e =>
      obtain ⟨i, hi, hout, -, -⟩ := (addSums_eq_error_iff ho).mp ha
      refine iff_of_true ⟨e, .inl rfl⟩ ⟨1, by simp, i, by omega, ?_⟩
      simpa [columnTotal] using hout
    | ok sums' =>
      obtain ⟨hts, hsum⟩ := addSums_start_ok ho ha
      have hlen' : ∀ p ∈ os, p.exact.length = sums'.length := by
        intro p hp
        rw [hts]
        exact hlen p (List.mem_cons_of_mem _ hp)
      simp only [reduceCtorEq, Except.ok.injEq, false_or, exists_eq_left', ih hlen', hts, hsum]
      constructor
      · rintro ⟨k, hk, i, hi, hout⟩
        refine ⟨k + 1, by simpa using hk, i, hi, ?_⟩
        rwa [List.take_succ_cons, List.map_cons, columnTotal, ← Int.add_assoc]
      · rintro ⟨k, hk, i, hi, hout⟩
        cases k with
        | zero => exact absurd (inRange_toInt _) (by simpa [columnTotal] using hout)
        | succ k =>
          refine ⟨k, by simpa using hk, i, hi, ?_⟩
          rwa [List.take_succ_cons, List.map_cons, columnTotal, ← Int.add_assoc] at hout

theorem map_resolve_other [Arith α] (agg : Aggregate α) (others : List (Aggregate α)) :
    (others.map Operand.other).map (Operand.resolve agg) = others := by
  simp [List.map_map, Function.comp_def, Operand.resolve]

/-- All that merging changes besides figures and moments is the rows. -/
theorem foldl_absorb_other [Arith α] (others : List (Aggregate α)) (agg : Aggregate α) :
    ((others.map Operand.other).foldl absorb agg).arity = agg.arity ∧
      ((others.map Operand.other).foldl absorb agg).kind = agg.kind ∧
      ((others.map Operand.other).foldl absorb agg).rows =
        others.foldl (fun n o => n + o.rows) agg.rows := by
  induction others generalizing agg with
  | nil => exact ⟨rfl, rfl, rfl⟩
  | cons o os ih => exact ih (agg.absorb (.other o))

end Staged

/-! ## The records of a run -/

/-- The records of whole numbers that an aggregate stands for: none at first,
one more for every record that is ingested or added, and those of the others
in order for every merge. The record that is added stands for the whole numbers
that its doubles are. A call that fails changes neither the aggregate nor its
records. -/
inductive Denotes : Aggregate Float → List (List Int64) → Prop
  | fresh (arity : Nat) : Denotes (.fresh arity .integer) []
  | setFloor {agg : Aggregate Float} {records : List (List Int64)} (floor : Bool) :
      Denotes agg records → Denotes (agg.setFloor floor) records
  | ingest {agg agg' : Aggregate Float} {records : List (List Int64)} {line : Text}
      {values : List Int64} : Denotes agg records → parseIntegers line agg.arity = .ok values →
        agg.ingest line = .ok agg' → Denotes agg' (records ++ [values])
  | add {agg agg' : Aggregate Float} {records : List (List Int64)} {record : Record}
      {values : List Int64} : Denotes agg records →
        record.Forall₂ Double.Holds values →
        agg.add record = .ok agg' → Denotes agg' (records ++ [values])
  | merge {agg agg' : Aggregate Float} {records : List (List Int64)}
      {others : List (Aggregate Float × List (List Int64))} : Denotes agg records →
        (∀ o ∈ others, Denotes o.1 o.2) →
        agg.merge ((others.map Prod.fst).map .other) = .ok agg' →
        Denotes agg' (records ++ (others.map Prod.snd).flatten)

/-- The exact sums and the rows are those of the records. -/
structure Tallied (agg : Aggregate Float) (records : List (List Int64)) : Prop where
  kind : agg.kind = .integer
  length : agg.exact.length = agg.arity
  width : ∀ r ∈ records, r.length = agg.arity
  total : ∀ i, (agg.exact.getD i 0).toInt = columnTotal records i
  rows : agg.rows = UInt64.ofNat records.length

variable {agg agg' : Aggregate Float} {records : List (List Int64)} {values : List Int64}

/-- A line of whole numbers is added as it was read. -/
theorem ingest_integer {line : Text} (hk : agg.kind = .integer)
    (hv : parseIntegers line agg.arity = .ok values) :
    agg.ingest line = agg.addIntegers values := by
  rw [Aggregate.ingest, if_pos hk, hv]
  rfl

/-- Doubles are added as the whole numbers that they are. -/
theorem add_integer {record : Record} (hk : agg.kind = .integer) (hn : record.length = agg.arity)
    (hv : record.Forall₂ Double.Holds values) : agg.add record = agg.addIntegers values := by
  have hw : wholes 0 [] record = .ok values :=
    (wholes_eq_ok_iff 0 [] record values).mpr
      ⟨values, (Double.forall₂_holds_iff record values).mp hv, rfl⟩
  rw [Aggregate.add, if_neg (by simp [hn]), if_pos hk, hw]
  rfl

/-- One record more. -/
theorem Tallied.addIntegers (h : Tallied agg records) (hv : values.length = agg.arity)
    (ha : agg.addIntegers values = .ok agg') : Tallied agg' (records ++ [values]) := by
  obtain ⟨sums, hs, rfl⟩ := (addIntegers_eq_ok_iff agg agg' values).mp ha
  obtain ⟨hlen, hsum⟩ := addSums_start_ok (h.length.trans hv.symm) hs
  refine ⟨h.kind, hlen.trans h.length, ?_, fun i => ?_, ?_⟩
  · intro r hr
    rcases List.mem_append.mp hr with hr | hr
    · exact h.width r hr
    · rw [List.mem_singleton.mp hr]
      exact hv
  · rw [hsum i, h.total i, columnTotal_snoc]
  · simp [Aggregate.apply, h.rows, UInt64.ofNat_add]

/-- What others bring to the sums is what their records do. -/
theorem Tallied.columnTotal_others {others : List (Aggregate Float × List (List Int64))}
    (ho : ∀ o ∈ others, Tallied o.1 o.2) (i : Nat) :
    columnTotal ((others.map Prod.fst).map exact) i =
      columnTotal (others.map Prod.snd).flatten i := by
  induction others with
  | nil => rfl
  | cons o os ih =>
    have hos := ih fun p hp => ho p (List.mem_cons_of_mem _ hp)
    simp only [List.map_cons, List.flatten_cons, columnTotal, columnTotal_append, hos,
      (ho o (List.mem_cons_self ..)).total i]

/-- Aggregates that can be merged have as many sums. -/
theorem Tallied.length_others {others : List (Aggregate Float × List (List Int64))}
    (h : Tallied agg records) (ho : ∀ o ∈ others, Tallied o.1 o.2)
    (ha : ∀ o ∈ others, o.1.arity = agg.arity) :
    ∀ p ∈ others.map Prod.fst, p.exact.length = agg.exact.length := by
  intro p hp
  obtain ⟨o, hmem, rfl⟩ := List.mem_map.mp hp
  rw [(ho o hmem).length, ha o hmem, h.length]

theorem Tallied.rows_others {others : List (Aggregate Float × List (List Int64))}
    (ho : ∀ o ∈ others, Tallied o.1 o.2) (n : Nat) :
    (others.map Prod.fst).foldl (fun n o => n + o.rows) (UInt64.ofNat n) =
      UInt64.ofNat (n + (others.map Prod.snd).flatten.length) := by
  induction others generalizing n with
  | nil => rfl
  | cons o os ih =>
    have hos := ih (fun p hp => ho p (List.mem_cons_of_mem _ hp)) (n + o.2.length)
    simp only [List.map_cons, List.foldl_cons, (ho o (List.mem_cons_self ..)).rows,
      ← UInt64.ofNat_add, hos, List.flatten_cons, List.length_append, Nat.add_assoc]

/-- The records of others more. -/
theorem Tallied.merge {others : List (Aggregate Float × List (List Int64))}
    (h : Tallied agg records) (ho : ∀ o ∈ others, Tallied o.1 o.2)
    (hm : agg.merge ((others.map Prod.fst).map .other) = .ok agg') :
    Tallied agg' (records ++ (others.map Prod.snd).flatten) := by
  obtain ⟨hc, sums, hs, rfl⟩ := (merge_eq_ok_iff agg agg' _).mp hm
  obtain ⟨harity, hkind, hrows⟩ := foldl_absorb_other (others.map Prod.fst) agg
  rw [map_resolve_other, mergedSums, if_pos h.kind] at hs
  have ha : ∀ o ∈ others, o.1.arity = agg.arity := by
    intro o hmem
    exact (hc (.other o.1) (List.mem_map_of_mem (List.mem_map_of_mem hmem))).1
  have hsum := stageSums_ok (h.length_others ho ha) hs
  refine ⟨hkind.trans h.kind, ?_, ?_, fun i => ?_, ?_⟩
  · rw [length_stageSums hs, h.length]
    exact harity.symm
  · intro r hr
    refine Eq.trans ?_ harity.symm
    rcases List.mem_append.mp hr with hr | hr
    · exact h.width r hr
    · obtain ⟨l, hl, hr⟩ := List.mem_flatten.mp hr
      obtain ⟨o, hmem, rfl⟩ := List.mem_map.mp hl
      rw [(ho o hmem).width r hr, ha o hmem]
  · rw [hsum i, h.total i, columnTotal_append, columnTotal_others ho]
  · rw [List.length_append, ← rows_others ho, ← h.rows]
    exact hrows

theorem Denotes.tallied (h : Denotes agg records) : Tallied agg records := by
  induction h with
  | fresh arity =>
    refine ⟨rfl, by simp [Aggregate.fresh], by simp, fun i => ?_, rfl⟩
    have hz : (List.replicate arity (0 : Int64)).getD i 0 = 0 := by
      simp only [List.getD_eq_getElem?_getD, List.getElem?_replicate]
      split <;> rfl
    show ((List.replicate arity (0 : Int64)).getD i 0).toInt = 0
    rw [hz]
    rfl
  | setFloor floor _ ih => exact ⟨ih.kind, ih.length, ih.width, ih.total, ih.rows⟩
  | ingest _ hv hi ih =>
    rw [ingest_integer ih.kind hv] at hi
    exact ih.addIntegers (length_parseIntegers hv) hi
  | add _ hv ha ih =>
    obtain ⟨hn, -⟩ := (add_eq_ok_iff _ _ _).mp ha
    rw [add_integer ih.kind hn hv] at ha
    exact ih.addIntegers (hv.length_eq.symm.trans hn) ha
  | merge _ _ hm ih iho => exact ih.merge iho hm

/-- Every line that is ingested has a record to append. -/
theorem Denotes.ingest_ok (h : Denotes agg records) {line : Text}
    (hi : agg.ingest line = .ok agg') : ∃ values, parseIntegers line agg.arity = .ok values ∧
      Denotes agg' (records ++ [values]) := by
  obtain ⟨-, values, hv, -⟩ | ⟨hk, -⟩ := (ingest_eq_ok_iff agg agg' line).mp hi
  · exact ⟨values, hv, .ingest h hv hi⟩
  · exact absurd h.tallied.kind hk

theorem Denotes.add_ok (h : Denotes agg records) {record : Record}
    (ha : agg.add record = .ok agg') : ∃ values, record.Forall₂ Double.Holds values ∧
      Denotes agg' (records ++ [values]) := by
  obtain ⟨-, ⟨-, values, hw, -⟩ | ⟨hk, -⟩⟩ := (add_eq_ok_iff agg agg' record).mp ha
  · have hv := (Double.forall₂_holds_iff record values).mpr hw
    exact ⟨values, hv, .add h hv ha⟩
  · exact absurd h.tallied.kind hk

/-! ## What is refused -/

/-- The total of column `i` is out of range, and it is the first. -/
def FirstOverflow (arity : Nat) (records : List (List Int64)) (i : Nat) : Prop :=
  i < arity ∧ ¬ InRange (columnTotal records i) ∧ ∀ j < i, InRange (columnTotal records j)

/-- A record is refused if it carries a total out of range, and for no other
reason. -/
theorem Tallied.addIntegers_eq_error_iff (h : Tallied agg records)
    (hv : values.length = agg.arity) (e : FormatError) :
    agg.addIntegers values = .error e ↔
      ∃ i, FirstOverflow agg.arity (records ++ [values]) i ∧
        e = .overflow i (values.getD i 0) := by
  have hlen : agg.exact.length = values.length := h.length.trans hv.symm
  rw [Aggregate.addIntegers_eq_error_iff, addSums_eq_error_iff hlen]
  simp only [FirstOverflow, columnTotal_snoc, h.total, hv, Nat.zero_add,
    and_assoc]

/-- Aggregates are refused if a total leaves the range on the way. -/
theorem Tallied.merge_error_iff {others : List (Aggregate Float × List (List Int64))}
    (h : Tallied agg records) (ho : ∀ o ∈ others, Tallied o.1 o.2)
    (ha : ∀ o ∈ others, o.1.arity = agg.arity) :
    (∃ e, agg.merge ((others.map Prod.fst).map .other) = .error e) ↔
      ∃ k ≤ others.length, ∃ i < agg.arity,
        ¬ InRange (columnTotal (records ++ ((others.take k).map Prod.snd).flatten) i) := by
  have hcheck : agg.checkCompatible (others.map Prod.fst) = .ok () := by
    rw [checkCompatible_eq_ok_iff]
    intro p hp
    obtain ⟨o, hmem, rfl⟩ := List.mem_map.mp hp
    exact ⟨ha o hmem, (ho o hmem).kind.trans h.kind.symm⟩
  have hmerge : (∃ e, agg.merge ((others.map Prod.fst).map .other) = .error e) ↔
      ∃ e, stageSums agg.exact (others.map Prod.fst) = .error e := by
    simp only [Aggregate.merge, map_resolve_other, bind_eq_error_iff, hcheck, mergedSums,
      if_pos h.kind]
    simp [pure, Except.pure]
  rw [hmerge, stageSums_error_iff (h.length_others ho ha), h.length, List.length_map]
  have hpartial (k i : Nat) : (agg.exact.getD i 0).toInt +
        columnTotal (((others.map Prod.fst).take k).map exact) i =
      columnTotal (records ++ ((others.take k).map Prod.snd).flatten) i := by
    rw [← List.map_take, columnTotal_others fun o hmem => ho o (List.mem_of_mem_take hmem),
      columnTotal_append, h.total]
  simp only [hpartial]

/-- One column that holds the greatest whole number there is. -/
def brimful : Aggregate Float :=
  { (Aggregate.fresh 1 .integer : Aggregate Float).apply [Double.ofWhole 9223372036854775807] with
    exact := [9223372036854775807] }

end Aggregate

end PerfReport
