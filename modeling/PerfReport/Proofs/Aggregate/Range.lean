import PerfReport.Proofs.Aggregate.Collected
import PerfReport.Proofs.Number.Conversion
import PerfReport.Proofs.Number.Order

/-!
# The range of a column

The extrema of a column are folds from a seed, the largest finite double of
either sign, over everything that was gathered by records and merges. They bound
every number of the column, and the seeds give way to any of its numbers but one:
the infinity beyond the seed.

* `foldl_higher_mem_iff`: when a seed gives way;
* `Bounds`, `bounds_foldl`: the least and the greatest of several values;
* `Gathered`: the records of an aggregate, by any calls;
* `Gathered.allWhole`: those of whole numbers have no infinities in them;
* `range_extrema`: the range of every column.
-/

namespace PerfReport

namespace Extremum

/-! ## The highest of several -/

section Higher

variable {β : Type} (rank : β → Int)

theorem foldl_higher_mem (seed : β) (xs : List β) :
    xs.foldl (higher rank) seed ∈ seed :: xs := by
  induction xs generalizing seed with
  | nil => exact List.mem_cons_self ..
  | cons x xs ih =>
    have hrest := ih (higher rank seed x)
    rw [List.foldl_cons]
    rcases List.mem_cons.mp hrest with hseed | hmem
    · rw [hseed]
      rcases higher_eq_or rank seed x with h | h <;> simp [h]
    · exact List.mem_cons_of_mem _ (List.mem_cons_of_mem _ hmem)

theorem rank_le_foldl_higher (seed : β) (xs : List β) :
    ∀ x ∈ seed :: xs, rank x ≤ rank (xs.foldl (higher rank) seed) := by
  induction xs generalizing seed with
  | nil => simp
  | cons y xs ih =>
    have hrest := ih (higher rank seed y)
    have hstep := rank_le_higher rank seed y
    have hnext := hrest _ (List.mem_cons_self ..)
    intro x hx
    rw [List.foldl_cons]
    rcases List.mem_cons.mp hx with rfl | hx
    · omega
    · rcases List.mem_cons.mp hx with rfl | hx
      · omega
      · exact hrest x (List.mem_cons_of_mem _ hx)

variable {rank}

/-- **Seeds.**  If one item only ranks below the seed, the seed gives way to any
list with another item in it. -/
theorem foldl_higher_mem_iff (hrank : ∀ x y, rank x = rank y → x = y) {seed below : β}
    (hbelow : ∀ x, rank x < rank seed ↔ x = below) (xs : List β) :
    xs.foldl (higher rank) seed ∈ xs ↔ ∃ x ∈ xs, x ≠ below := by
  have hle := rank_le_foldl_higher rank seed xs
  constructor
  · intro hmem
    refine ⟨_, hmem, ?_⟩
    rw [Ne, ← hbelow]
    have := hle seed (List.mem_cons_self ..)
    omega
  · rintro ⟨x, hx, hne⟩
    rw [Ne, ← hbelow] at hne
    have hup := hle x (List.mem_cons_of_mem _ hx)
    rcases List.mem_cons.mp (foldl_higher_mem rank seed xs) with hseed | hmem
    · rw [hseed] at hup ⊢
      obtain rfl : x = seed := hrank _ _ (by omega)
      exact hx
    · exact hmem

theorem foldl_higher_eq_seed (hrank : ∀ x y, rank x = rank y → x = y) {seed below : β}
    (hbelow : ∀ x, rank x < rank seed ↔ x = below) {xs : List β} (h : ∀ x ∈ xs, x = below) :
    xs.foldl (higher rank) seed = seed := by
  rcases List.mem_cons.mp (foldl_higher_mem rank seed xs) with hseed | hmem
  · exact hseed
  · obtain ⟨x, hx, hne⟩ := (foldl_higher_mem_iff hrank hbelow xs).mp hmem
    exact absurd (h x hx) hne

end Higher

/-! ## Extrema of doubles -/

/-- Only negative infinity ranks below the least finite double. -/
theorem maxRank_lt_bottom_iff (x : Float) :
    maxRank x < maxRank Arith.bottom ↔ x = Binary64.infinity true := by
  have hbottom : maxRank (Arith.bottom : Float) = -18437736874454810624 := rfl
  have hx := x.toBits.toNat_lt
  rw [hbottom, ← Float.toBits_inj, ← UInt64.toNat_inj, toBits_infinity, maxRank, upperRank]
  have hinf : order Binary64.infinityBits = 9218868437227405312 := rfl
  split
  · next h =>
    rw [isIndefinite_iff] at h
    rw [hinf]
    simp only [if_true]
    omega
  · next h =>
    rw [isIndefinite_iff] at h
    rw [order_eq]
    simp only [if_true]
    split <;> omega

theorem minRank_lt_top_iff (x : Float) :
    minRank x < minRank Arith.top ↔ x = Binary64.infinity false := by
  have htop : minRank (Arith.top : Float) = -18437736874454810622 := rfl
  have hx := x.toBits.toNat_lt
  rw [htop, ← Float.toBits_inj, ← UInt64.toNat_inj, toBits_infinity, minRank, lowerRank]
  have hinf : order (pow2 63 + Binary64.infinityBits) = -9218868437227405313 := rfl
  split
  · next h =>
    rw [isIndefinite_iff] at h
    rw [hinf]
    simp only [Bool.false_eq_true, if_false]
    omega
  · next h =>
    rw [isIndefinite_iff] at h
    rw [order_eq]
    simp only [Bool.false_eq_true, if_false]
    split <;> omega

/-- The least and the greatest of these values: they bound all of them, if all
are numbers. Each is one of them, unless they all are the infinity beyond its
seed; it is the seed then. -/
structure Bounds (values : List Float) (l u : Float) : Prop where
  bound : (∀ v ∈ values, v.isNaN = false) → ∀ v ∈ values, l ≤ v ∧ v ≤ u
  least : l ∈ values ↔ ∃ v ∈ values, v ≠ Binary64.infinity false
  greatest : u ∈ values ↔ ∃ v ∈ values, v ≠ Binary64.infinity true
  top : (∀ v ∈ values, v = Binary64.infinity false) → l = Double.largest
  bottom : (∀ v ∈ values, v = Binary64.infinity true) → u = -Double.largest

theorem isNaN_foldl_higher (rank : Float → Int) {seed : Float} {values : List Float}
    (hseed : seed.isNaN = false) (h : ∀ v ∈ values, v.isNaN = false) :
    (values.foldl (higher rank) seed).isNaN = false := by
  rcases List.mem_cons.mp (foldl_higher_mem rank seed values) with heq | hmem
  · rw [heq]
    exact hseed
  · exact h _ hmem

theorem bounds_foldl (values : List Float) :
    Bounds values (values.foldl lesser Arith.top) (values.foldl greater Arith.bottom) := by
  have hlesser : lesser = higher minRank := by
    funext x y
    exact lesser_eq_higher x y
  have hgreater : greater = higher maxRank := rfl
  rw [hlesser, hgreater]
  refine ⟨?_, foldl_higher_mem_iff minRank_inj minRank_lt_top_iff values,
    foldl_higher_mem_iff maxRank_inj maxRank_lt_bottom_iff values,
    foldl_higher_eq_seed minRank_inj minRank_lt_top_iff,
    foldl_higher_eq_seed maxRank_inj maxRank_lt_bottom_iff⟩
  intro hnan v hv
  have hl := isNaN_foldl_higher minRank (rfl : Float.isNaN Arith.top = false) hnan
  have hu := isNaN_foldl_higher maxRank (rfl : Float.isNaN Arith.bottom = false) hnan
  have hmem (seed : Float) : v ∈ seed :: values := List.mem_cons_of_mem _ hv
  exact ⟨ge_of_minRank_le (hnan v hv) hl (rank_le_foldl_higher minRank _ values v (hmem _)),
    le_of_maxRank_le (hnan v hv) hu (rank_le_foldl_higher maxRank _ values v (hmem _))⟩

end Extremum

namespace Aggregate

open Extremum (Bounds bounds_foldl)

variable {agg agg' : Aggregate Float} {records : List Record}

/-! ## Everything that was gathered -/

/-- The records of an aggregate, as doubles: none at first, one more for every
line that is ingested and every record that is added, and for a merge those of
every part in turn. The receiver, if it is a part, brings what it has gathered by
then. A call that fails changes neither the aggregate nor its records. -/
inductive Gathered : Aggregate Float → List Record → Prop
  | fresh (arity : Nat) (kind : NumericKind) : Gathered (.fresh arity kind) []
  | setFloor {agg : Aggregate Float} {records : List Record} (floor : Bool) :
      Gathered agg records → Gathered (agg.setFloor floor) records
  | ingest {agg agg' : Aggregate Float} {records : List Record} {e : Entry} {line : Text} :
      Gathered agg records → Entry.ofLine agg.arity agg.kind line = .ok e →
        agg.ingest line = .ok agg' → Gathered agg' (records ++ [e.doubles])
  | add {agg agg' : Aggregate Float} {records : List Record} {e : Entry} {record : Record} :
      Gathered agg records → Entry.ofRecord agg.arity agg.kind record = .ok e →
        agg.add record = .ok agg' → Gathered agg' (records ++ [e.doubles])
  | merge {agg agg' : Aggregate Float} {records : List Record} {parts : List (Part Float)} :
      Gathered agg records → (∀ p, some p ∈ parts → Gathered p.1 p.2) →
        agg.merge (parts.map Part.operand) = .ok agg' →
        Gathered agg' (parts.foldl Part.appendTo records)

/-- By induction over the calls: every one keeps a law of columns. -/
theorem Gathered.obeys {R : Column Float → Moments Float → List Float → Prop} (hR : ColumnLaw R)
    (h : Gathered agg records) : agg.Reflects R records := by
  induction h with
  | fresh arity kind => exact reflects_fresh hR arity kind
  | setFloor floor _ ih => exact ih.setFloor floor
  | ingest _ hl hi ih => exact ih.enter hR (Entry.fits_ofLine hl) (enter_of_ingest hl hi)
  | add _ hr ha ih => exact ih.enter hR (Entry.fits_ofRecord hr) (enter_of_add hr ha)
  | merge _ _ hm ih iho => exact ih.merge hR iho hm

theorem Gathered.reflects (h : Gathered agg records) : agg.Reflects Extrema records :=
  h.obeys extremaLaw

/-- All values are doubles of whole numbers. -/
def AllWhole (records : List Record) : Prop :=
  ∀ r ∈ records, ∀ x ∈ r, ∃ n, x = Double.ofWhole n

theorem AllWhole.append {records records' : List Record} (h : AllWhole records)
    (h' : AllWhole records') : AllWhole (records ++ records') := by
  intro r hr
  rcases List.mem_append.mp hr with hr | hr
  · exact h r hr
  · exact h' r hr

theorem allWhole_doubles {e : Entry} {arity : Nat} (hf : e.Fits arity .integer) :
    AllWhole [e.doubles] := by
  intro r hr x hx
  rw [List.mem_singleton.mp hr] at hx
  cases e with
  | whole values =>
    obtain ⟨n, -, rfl⟩ := List.mem_map.mp hx
    exact ⟨n, rfl⟩
  | real record => exact absurd rfl hf.1

theorem AllWhole.foldl_appendTo {parts : List (Part Float)} (h : AllWhole records)
    (ho : ∀ p, some p ∈ parts → AllWhole p.2) : AllWhole (parts.foldl Part.appendTo records) := by
  induction parts generalizing records with
  | nil => exact h
  | cons part parts ih =>
    refine ih ?_ fun p hp => ho p (List.mem_cons_of_mem _ hp)
    cases part with
    | none => exact h.append h
    | some p => exact h.append (ho p (List.mem_cons_self ..))

/-- Whole numbers stay whole: parts of a merge are of the same kind. -/
theorem Gathered.allWhole (h : Gathered agg records) (hk : agg.kind = .integer) :
    AllWhole records := by
  induction h with
  | fresh arity kind => exact nofun
  | setFloor floor _ ih => exact ih hk
  | ingest _ hl hi ih =>
    have hkind := (enter_static (enter_of_ingest hl hi)).2.1.symm.trans hk
    exact (ih hkind).append (allWhole_doubles (hkind ▸ Entry.fits_ofLine hl))
  | add _ hr ha ih =>
    have hkind := (enter_static (enter_of_add hr ha)).2.1.symm.trans hk
    exact (ih hkind).append (allWhole_doubles (hkind ▸ Entry.fits_ofRecord hr))
  | merge _ _ hm ih iho =>
    have hkind := (merge_static hm).2.1.symm.trans hk
    obtain ⟨hc, -⟩ := (merge_eq_ok_iff _ _ _).mp hm
    refine (ih hkind).foldl_appendTo fun p hp => iho p hp ?_
    exact (hc _ (List.mem_map_of_mem hp)).2.trans hkind

/-! ## The range -/

theorem AllWhole.columnValues (h : AllWhole records) (hwidth : ∀ r ∈ records, r.length = agg.arity)
    {i : Nat} (hi : i < agg.arity) : ∀ v ∈ columnValues records i, ∃ n, v = Double.ofWhole n := by
  intro v hv
  obtain ⟨r, hr, rfl⟩ := List.mem_map.mp hv
  have hlt : i < r.length := (hwidth r hr).symm ▸ hi
  refine h r hr _ ?_
  rw [List.getD_eq_getElem _ _ hlt]
  exact List.getElem_mem hlt

/-- There is a value in every column, once there is a row. -/
theorem Gathered.ne_nil (h : Gathered agg records) (hrows : agg.rows ≠ 0) : records ≠ [] := by
  rintro rfl
  exact hrows h.reflects.rows

/-- **Range.**  Once there is a row, there is a range with a least and a greatest
value for every column. They bound all values of a column without the indefinite
value. The greatest is one of the values unless all of them are negative
infinity: it is then the least finite double, which the column started from, and
likewise with the least. The extrema of whole numbers always are values. -/
theorem range_extrema (h : Gathered agg records) (hrows : agg.rows ≠ 0) :
    records ≠ [] ∧ (∀ r ∈ records, r.length = agg.arity) ∧
    ∃ lo hi, agg.range? = some (lo, hi) ∧ lo.length = agg.arity ∧ hi.length = agg.arity ∧
      ∀ i < agg.arity, ∃ l u, lo[i]? = some l ∧ hi[i]? = some u ∧
        Bounds (columnValues records i) l u ∧
        (agg.kind = .integer → l ∈ columnValues records i ∧ u ∈ columnValues records i ∧
          ∀ v ∈ columnValues records i, l ≤ v ∧ v ≤ u) := by
  have hr := h.reflects
  refine ⟨h.ne_nil hrows, hr.width, _, _, if_neg hrows, by simp [hr.shaped.columns],
    by simp [hr.shaped.columns], ?_⟩
  intro i hi
  obtain ⟨c, m, hc, -, hx⟩ := hr.exists_column hi
  have hbounds := bounds_foldl (columnValues records i)
  rw [← hx.min, ← hx.max] at hbounds
  refine ⟨c.min, c.max, by simp [hc], by simp [hc], hbounds, ?_⟩
  intro hk
  have hwhole := (h.allWhole hk).columnValues hr.width hi
  obtain ⟨v, hv⟩ : ∃ v, v ∈ columnValues records i :=
    List.exists_mem_of_ne_nil _ (by simpa [PerfReport.columnValues] using h.ne_nil hrows)
  have hfinite (negative : Bool) : v ≠ Binary64.infinity negative := by
    obtain ⟨n, rfl⟩ := hwhole v hv
    exact Double.ofWhole_ne_infinity n negative
  refine ⟨hbounds.least.mpr ⟨v, hv, hfinite false⟩, hbounds.greatest.mpr ⟨v, hv, hfinite true⟩,
    hbounds.bound ?_⟩
  intro w hw
  obtain ⟨n, rfl⟩ := hwhole w hw
  exact Double.isNaN_ofWhole n

/-- Real numbers are never refused. -/
theorem Gathered.apply {record : Record} (h : Gathered agg records) (hk : agg.kind ≠ .integer)
    (hn : record.length = agg.arity) : Gathered (agg.apply record) (records ++ [record]) :=
  h.add (Entry.ofRecord_real hk hn) ((add_eq_ok_iff agg _ record).mpr ⟨hn, .inr ⟨hk, rfl⟩⟩)

/-- One column with both infinities and a number between them. -/
def wide : Aggregate Float :=
  (((Aggregate.fresh 1 .float).apply [Binary64.infinity true]).apply [1.0]).apply
    [Binary64.infinity false]

theorem range_extrema_wide : ∃ lo hi l u, wide.range? = some (lo, hi) ∧ lo[0]? = some l ∧
    hi[0]? = some u ∧ l ∈ [Binary64.infinity true, 1.0, Binary64.infinity false] ∧
    u ∈ [Binary64.infinity true, 1.0, Binary64.infinity false] ∧ l ≤ 1.0 ∧ (1.0 : Float) ≤ u := by
  have h : Gathered wide [[Binary64.infinity true], [1.0], [Binary64.infinity false]] :=
    (((Gathered.fresh 1 .float).apply (by decide) rfl).apply (by decide) rfl).apply (by decide) rfl
  obtain ⟨-, -, lo, hi, hrange, -, -, hcolumn⟩ := range_extrema h (by decide)
  obtain ⟨l, u, hl, hu, hbounds, -⟩ := hcolumn 0 (by decide)
  have hone (negative : Bool) : (1.0 : Float) ≠ Binary64.infinity negative := by
    cases negative <;> decide
  have hmem : (1.0 : Float) ∈ [Binary64.infinity true, 1.0, Binary64.infinity false] := by simp
  have hnumbers : ∀ v ∈ [Binary64.infinity true, 1.0, Binary64.infinity false],
      v.isNaN = false := by
    simp only [List.forall_mem_cons]
    exact ⟨rfl, rfl, rfl, nofun⟩
  exact ⟨lo, hi, l, u, hrange, hl, hu, hbounds.least.mpr ⟨_, hmem, hone false⟩,
    hbounds.greatest.mpr ⟨_, hmem, hone true⟩, hbounds.bound hnumbers _ hmem⟩

/-- A column of nothing but negative infinity: the greatest value is none of
the values. -/
theorem infinite_column_range : ∃ agg, (Aggregate.fresh 1 .float).ingest "-inf" = .ok agg ∧
    Gathered agg [[Binary64.infinity true]] ∧ agg.rows = 1 ∧
    agg.range? = some ([Binary64.infinity true], [-Double.largest]) ∧
    (Binary64.infinity true).isNaN = false ∧
    -Double.largest ∉ columnValues [[Binary64.infinity true]] 0 := by
  have hi : (Aggregate.fresh 1 .float).ingest "-inf" =
      .ok ((Aggregate.fresh 1 .float).apply [Binary64.infinity true]) := rfl
  have h : Gathered ((Aggregate.fresh 1 .float).apply [Binary64.infinity true])
      [[Binary64.infinity true]] := (Gathered.fresh 1 .float).apply (by decide) rfl
  refine ⟨_, hi, h, rfl, rfl, rfl, ?_⟩
  have hne : -Double.largest ≠ Binary64.infinity true := by decide
  simpa [columnValues] using hne

end Aggregate

end PerfReport
