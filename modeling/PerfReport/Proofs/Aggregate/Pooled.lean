import PerfReport.Proofs.Stats.Exact

/-!
# Parts pooled in exact arithmetic

Records may be split into parts in any way, parts may be empty, repeated, and
merged into themselves. In exact arithmetic the figures of the whole do not
show it: they are those of the records in the order in which they were pooled,
and then those of the same records in any other order.

* `Pooled`: the records that an aggregate stands for;
* `Pooled.reflects`: its columns have the sums and moments of their values;
* `Pooled.mean_eq`, `Pooled.sampleVariances_eq`: figures from the records alone;
* `pooled_statistics_exact`: all of it, and any other way to feed the records.
-/

namespace PerfReport.Aggregate

/-- The records that an aggregate stands for: none at first, one more for each
that is added, and for a merge those of every part in turn. The receiver, if
it is a part, brings what it stands for by then. A call that fails changes
neither the aggregate nor its records. -/
inductive Pooled : Aggregate ℚ → List (List ℚ) → Prop
  | fresh (arity : Nat) (kind : NumericKind) : Pooled (.fresh arity kind) []
  | add {agg agg' : Aggregate ℚ} {records : List (List ℚ)} {record : List ℚ} :
      Pooled agg records → agg.add record = .ok agg' → Pooled agg' (records ++ [record])
  | merge {agg agg' : Aggregate ℚ} {records : List (List ℚ)} {parts : List (Part ℚ)} :
      Pooled agg records → (∀ p, some p ∈ parts → Pooled p.1 p.2) →
        agg.merge (parts.map Part.operand) = .ok agg' →
        Pooled agg' (parts.foldl Part.appendTo records)

variable {agg agg' single : Aggregate ℚ} {records records' fed : List (List ℚ)}

/-- A record of whole numbers is added as the numbers that it holds. -/
theorem map_ofWhole {record : List ℚ} {values : List Int64}
    (h : record.map Arith.toWhole? = values.map some) : values.map Arith.ofWhole = record := by
  induction record generalizing values with
  | nil =>
    cases values with
    | nil => rfl
    | cons v values => simp at h
  | cons x record ih =>
    cases values with
    | nil => simp at h
    | cons v values =>
      simp only [List.map_cons, List.cons.injEq] at h
      rw [List.map_cons, ofWhole_of_toWhole? h.1, ih h.2]

theorem Reflects.add {R : Column ℚ → Moments ℚ → List ℚ → Prop} (hR : ColumnLaw R)
    (h : agg.Reflects R records) {record : List ℚ} (ha : agg.add record = .ok agg') :
    agg'.Reflects R (records ++ [record]) := by
  obtain ⟨hn, ⟨-, values, hv, ha'⟩ | ⟨-, rfl⟩⟩ := (add_eq_ok_iff agg agg' record).mp ha
  · have hlen : record.length = values.length := by simpa using congrArg List.length hv
    rw [← map_ofWhole hv]
    exact h.addIntegers hR (hlen.symm.trans hn) ha'
  · exact h.apply hR hn

/-- By induction over the calls: every one keeps the law of exact columns. -/
theorem Pooled.reflects (h : Pooled agg records) : agg.Reflects ExactColumn records := by
  induction h with
  | fresh arity kind => exact reflects_fresh exactLaw arity kind
  | add _ ha ih => exact ih.add exactLaw ha
  | merge _ _ hm ih iho => exact ih.merge exactLaw iho hm

theorem Pooled.floor_eq (h : Pooled agg records) : agg.floor = false := by
  induction h with
  | fresh arity kind => rfl
  | add _ ha ih => exact (add_static ha).2.2.trans ih
  | merge _ _ hm ih _ => exact (merge_static hm).2.2.trans ih

/-! ## Figures from the records alone -/

theorem Pooled.rows_eq_zero_iff (h : Pooled agg records) (hn : records.length < UInt64.size) :
    agg.rows = 0 ↔ records.length = 0 := by
  rw [h.reflects.rows, ← UInt64.toNat_inj, UInt64.toNat_ofNat_of_lt' hn]
  rfl

/-- The mean of every column, once there is a record. -/
theorem Pooled.mean_eq (h : Pooled agg records) (hn : records.length < UInt64.size) :
    agg.mean = if records.length = 0 then .error (.division .mean) else
      .ok ((List.range agg.arity).map fun i => average (columnValues records i)) := by
  have hcolumns : (agg.columns.map fun c => quotient c.sum agg.rows agg.floor) =
      (List.range agg.arity).map fun i => average (columnValues records i) := by
    refine h.reflects.map_columns ?_
    intro c m xs hlen hxs
    rw [quotient, h.floor_eq, if_neg Bool.false_ne_true, h.reflects.rows,
      Moments.ofCount_ofNat hn, (hxs (hlen ▸ hn)).1, average, hlen]
  rw [Aggregate.mean, hcolumns]
  simp only [h.rows_eq_zero_iff hn]

theorem Pooled.sampleVariances_eq (h : Pooled agg records) (hn : records.length < UInt64.size) :
    agg.moments.map Moments.sampleVariance = (List.range agg.arity).map fun i =>
      (Moments.ofValues (columnValues records i)).sampleVariance := by
  refine h.reflects.map_moments (g := fun xs => (Moments.ofValues xs).sampleVariance) ?_
  intro c m xs hlen hxs
  rw [(hxs (hlen ▸ hn)).2]

/-- The same records in another order have the same figures. -/
theorem Pooled.figures_perm (h : Pooled agg records) (h' : Pooled agg' records')
    (hn : records.length < UInt64.size) (hp : records'.Perm records)
    (harity : agg'.arity = agg.arity) : agg'.mean = agg.mean ∧
      agg'.moments.map Moments.sampleVariance = agg.moments.map Moments.sampleVariance := by
  have hn' : records'.length < UInt64.size := by rwa [hp.length_eq]
  constructor
  · rw [h.mean_eq hn, h'.mean_eq hn', harity, hp.length_eq]
    rw [map_columnValues_perm (g := average) (fun hxs => ?_) hp]
    exact congrArg Moments.mean (Moments.ofValues_perm hxs)
  · rw [h.sampleVariances_eq hn, h'.sampleVariances_eq hn', harity]
    refine map_columnValues_perm (g := fun xs => (Moments.ofValues xs).sampleVariance) ?_ hp _
    intro xs ys hxs
    rw [Moments.ofValues_perm hxs]

/-! ## One aggregate fed everything -/

theorem Pooled.feed (h : Pooled agg records) (hf : fed.foldlM Aggregate.add agg = .ok single) :
    Pooled single (records ++ fed) ∧ single.arity = agg.arity := by
  induction fed generalizing agg records with
  | nil =>
    cases hf
    simpa using h
  | cons record fed ih =>
    rw [List.foldlM_cons] at hf
    obtain ⟨next, ha, hf⟩ := bind_eq_ok_iff.mp hf
    obtain ⟨hsingle, harity⟩ := ih (h.add ha) hf
    refine ⟨?_, harity.trans (add_static ha).1⟩
    simpa using hsingle

/-- Real numbers are never refused. -/
theorem foldlM_add_ok (hk : agg.kind ≠ .integer) (hfed : ∀ r ∈ fed, r.length = agg.arity) :
    ∃ single, fed.foldlM Aggregate.add agg = .ok single := by
  induction fed generalizing agg with
  | nil => exact ⟨agg, rfl⟩
  | cons record fed ih =>
    have hn := hfed record (List.mem_cons_self ..)
    have ha : agg.add record = .ok (agg.apply record) :=
      (add_eq_ok_iff agg _ record).mpr ⟨hn, .inr ⟨hk, rfl⟩⟩
    have hk' : (agg.apply record).kind ≠ .integer := hk
    obtain ⟨single, hsingle⟩ := ih hk' fun r hr => hfed r (List.mem_cons_of_mem _ hr)
    refine ⟨single, ?_⟩
    rw [List.foldlM_cons, ha]
    exact hsingle

/-- **Merging is pooling.**  In exact arithmetic, every column of an aggregate
that was put together by any additions and merges has the sum, the number, the
mean and the squared deviations of its values, as long as these can be
counted. Means and sample variances are therefore those of one aggregate that
is fed the same records in any order; real numbers can always be fed so. -/
theorem pooled_statistics_exact (h : Pooled agg records) (hn : records.length < UInt64.size) :
    (∀ r ∈ records, r.length = agg.arity) ∧
    (∀ i < agg.arity, ∃ c m, agg.columns[i]? = some c ∧ agg.moments[i]? = some m ∧
      c.sum = (columnValues records i).sum ∧ m.count.toNat = records.length ∧
      (0 < records.length → m.mean = c.sum / records.length ∧
        m.m2 = ((columnValues records i).map fun x => (x - m.mean) ^ 2).sum) ∧
      (2 ≤ records.length → m.sampleVariance = m.m2 / (records.length - 1))) ∧
    (0 < records.length → agg.mean = .ok (agg.columns.map fun c => c.sum / records.length)) ∧
    (∀ (fed : List (List ℚ)) (single : Aggregate ℚ), fed.Perm records →
      fed.foldlM Aggregate.add (.fresh agg.arity agg.kind) = .ok single →
        agg.mean = single.mean ∧
        agg.moments.map Moments.sampleVariance = single.moments.map Moments.sampleVariance) ∧
    (agg.kind ≠ .integer → ∀ fed : List (List ℚ), fed.Perm records →
      ∃ single, fed.foldlM Aggregate.add (.fresh agg.arity agg.kind) = .ok single) := by
  have hr := h.reflects
  refine ⟨hr.width, ?_, ?_, ?_, ?_⟩
  · intro i hi
    obtain ⟨c, m, hc, hm, hexact⟩ := hr.exists_column hi
    have hlen := length_columnValues records i
    obtain ⟨hsum, rfl⟩ := hexact (hlen ▸ hn)
    refine ⟨c, _, hc, hm, hsum, ?_, ?_, ?_⟩
    · rw [Moments.toNat_count_ofValues (hlen ▸ hn), hlen]
    · intro _
      refine ⟨?_, rfl⟩
      rw [hsum, ← hlen]
      rfl
    · intro htwo
      rw [Moments.sampleVariance_ofValues (hlen ▸ hn) (hlen ▸ htwo), hlen]
  · intro hpos
    have hcolumns : (agg.columns.map fun c => c.sum / (records.length : ℚ)) =
        (List.range agg.arity).map fun i => average (columnValues records i) := by
      refine hr.map_columns ?_
      intro c m xs hlen hxs
      rw [(hxs (hlen ▸ hn)).1, average, hlen]
    rw [h.mean_eq hn, if_neg (by omega), hcolumns]
  · intro fed single hp hfed
    obtain ⟨hsingle, harity⟩ := (Pooled.fresh agg.arity agg.kind).feed hfed
    have hn' : ([] ++ fed).length < UInt64.size := by rwa [List.nil_append, hp.length_eq]
    exact hsingle.figures_perm h hn' hp.symm harity.symm
  · intro hk fed hp
    refine foldlM_add_ok hk ?_
    intro r hmem
    exact hr.width r (hp.mem_iff.mp hmem)

/-- One column with one value. -/
def lone (x : ℚ) : Aggregate ℚ := (Aggregate.fresh 1 .float).apply [x]

/-- A value, then another part, then all of it once more. -/
def doubled : Aggregate ℚ := [.other (lone 3), .self].foldl Aggregate.absorb (lone 1)

theorem pooled_statistics_doubled : Pooled doubled [[1], [3], [1], [3]] ∧
    ∃ (c : Column ℚ) (m : Moments ℚ), doubled.columns[0]? = some c ∧
      doubled.moments[0]? = some m ∧ c.sum = 8 ∧ m.count.toNat = 4 ∧ m.mean = 2 ∧ m.m2 = 4 ∧
      m.sampleVariance = 4 / 3 := by
  have hlone (x : ℚ) : Pooled (lone x) [[x]] := (Pooled.fresh 1 .float).add rfl
  have hparts : ∀ p, some p ∈ [some (lone 3, [[3]]), none] → Pooled p.1 p.2 := by
    intro p hp
    obtain rfl : p = (lone 3, [[3]]) := by simpa using hp
    exact hlone 3
  have h : Pooled doubled [[1], [3], [1], [3]] := (hlone 1).merge hparts rfl
  refine ⟨h, ?_⟩
  obtain ⟨-, hcolumn, -, -, -⟩ := pooled_statistics_exact h (by decide)
  obtain ⟨c, m, hc, hm, hsum, hcount, hfigures, hvariance⟩ := hcolumn 0 (by decide)
  have hsum : c.sum = 8 := by
    rw [hsum]
    norm_num [columnValues]
  obtain ⟨hmean, hm2⟩ := hfigures (by decide)
  have hmean : m.mean = 2 := by
    rw [hmean, hsum]
    norm_num
  have hm2 : m.m2 = 4 := by
    rw [hm2, hmean]
    norm_num [columnValues]
  refine ⟨c, m, hc, hm, hsum, hcount, hmean, hm2, ?_⟩
  rw [hvariance (by decide), hm2]
  norm_num

end PerfReport.Aggregate
