import PerfReport.Proofs.Aggregate.Shape
import PerfReport.Config
import PerfReport.Report.Render

/-!
# Reports of a sound specification

A specification that was validated names columns that are there, and an
aggregate in shape shows as many values as it has columns, so that they can be
laid out. Of whole numbers nothing but the exact totals is shown.

* `ReportSpec.layOut?_of_validate`: enough cells are laid out;
* `Aggregate.exists_render_raw`, `Aggregate.exists_render_averaged`: so are the
  totals, and the means if there are rows;
* `Aggregate.Shaped.rendered`: how rendering ends, in every case;
* `Aggregate.render_raw_congr`: the same exact totals, the same text;
* `Aggregate.Shaped.render_raw_integer`: what is laid out is the exact totals
  of the columns that the groups name.
-/

namespace PerfReport

namespace ReportSpec

theorem checkGroup_ok {summary : Bool} {arity : Int} {index : Nat} {g : Group}
    (h : checkGroup summary arity index g = .ok ()) :
    inRange g.left arity = true ∧ inRange g.right arity = true := by
  unfold checkGroup at h
  split at h
  · cases h
  · split at h
    · cases h
    · split at h
      · cases h
      · next hl hr => exact ⟨by simpa using hl, by simpa using hr⟩

theorem checkGroups_ok {summary : Bool} {arity : Int} {index : Nat} {groups : List Group}
    (h : checkGroups summary arity index groups = .ok ()) :
    ∀ g ∈ groups, inRange g.left arity = true ∧ inRange g.right arity = true := by
  induction groups generalizing index with
  | nil => simp
  | cons g gs ih =>
    obtain ⟨_, hg, hgs⟩ := bind_eq_ok_iff.mp h
    exact List.forall_mem_cons.mpr ⟨checkGroup_ok hg, ih hgs⟩

theorem checkGroups_of_validate {spec : ReportSpec} {arity : Int}
    (h : spec.validate arity = .ok ()) :
    checkGroups spec.summary arity 0 spec.groups = .ok () := by
  unfold validate at h
  split at h
  · cases h
  · split at h
    · split at h
      · cases h
      · exact h
    · exact h

/-- The columns that a validated specification names are there. -/
theorem inRange_of_validate {spec : ReportSpec} {arity : Int} (h : spec.validate arity = .ok ()) :
    ∀ g ∈ spec.groups, inRange g.left arity = true ∧ inRange g.right arity = true :=
  checkGroups_ok (checkGroups_of_validate h)

/-- The cell of a column; of one that is not there, the cell of zero. -/
def cellOf (cells : List Cell) (column : Int) : Cell := cells.getD column.toNat (.ofInteger 0)

/-- A group with the cells of its columns. -/
def pairOf (cells : List Cell) (g : Group) : Pair :=
  ⟨g, cellOf cells g.left, cellOf cells g.right⟩

theorem cellAt?_of_inRange {cells : List Cell} {column : Int}
    (h : inRange column cells.length = true) : cellAt? cells column = some (cellOf cells column) := by
  simp only [inRange, Bool.and_eq_true, decide_eq_true_eq] at h
  have hlt : column.toNat < cells.length := by omega
  rw [cellAt?, if_neg (by omega), cellOf, List.getD_eq_getElem?_getD,
    List.getElem?_eq_getElem hlt]
  rfl

theorem mapM_pair?_of_inRange {cells : List Cell} {groups : List Group}
    (h : ∀ g ∈ groups, inRange g.left cells.length = true ∧ inRange g.right cells.length = true) :
    groups.mapM (pair? cells) = some (groups.map (pairOf cells)) := by
  induction groups with
  | nil => rfl
  | cons g gs ih =>
    obtain ⟨⟨hleft, hright⟩, hgs⟩ := List.forall_mem_cons.mp h
    simp [pair?, pairOf, cellAt?_of_inRange hleft, cellAt?_of_inRange hright, ih hgs]

/-- As many cells as the specification was validated for are laid out. -/
theorem layOut?_of_validate {spec : ReportSpec} {cells : List Cell}
    (h : spec.validate cells.length = .ok ()) (mode : Mode) :
    spec.layOut? cells mode = some (if spec.summary
      then spec.summaryText mode (spec.groups.map (pairOf cells))
      else spec.pairText mode (spec.groups.map (pairOf cells))) := by
  rw [layOut?, mapM_pair?_of_inRange (inRange_of_validate h)]
  rfl

end ReportSpec

namespace Layout

theorem validate_ok {l : Layout} (h : l.validate = .ok ()) :
    0 < l.arity ∧ (l.spec []).validate l.arity = .ok () := by
  simp only [validate, guard_eq_ok_iff, mapError_eq_ok_iff] at h
  obtain ⟨harity, -, -, -, hspec⟩ := h
  exact ⟨by omega, hspec⟩

end Layout

namespace Aggregate

theorem cells_raw (agg : Aggregate Float) : ∃ cells, agg.cells .raw = .ok cells := by
  rw [cells, if_neg (by decide), if_pos rfl]
  split <;> exact ⟨_, rfl⟩

theorem cells_averaged (agg : Aggregate Float) : agg.cells .averaged =
    if agg.rows = 0 then .error (.division .mean)
    else .ok ((agg.columns.map fun c => quotient c.sum agg.rows agg.floor).map Cell.ofFloat) := by
  rw [cells, if_pos rfl, mean]
  split <;> rfl

theorem cells_other (agg : Aggregate Float) {mode : Mode} (ha : mode ≠ .averaged)
    (hr : mode ≠ .raw) : agg.cells mode = .error (.unknownMode mode.name) := by
  rw [cells, if_neg ha, if_neg hr]

/-- There are as many values as columns. -/
theorem Shaped.length_cells {agg : Aggregate Float} (h : agg.Shaped) {mode : Mode}
    {cells : List Cell} (hc : agg.cells mode = .ok cells) : cells.length = agg.arity := by
  by_cases ha : mode = .averaged
  · rw [ha, cells_averaged] at hc
    split at hc
    · cases hc
    · cases hc
      simp [h.columns]
  · by_cases hr : mode = .raw
    · rw [hr, Aggregate.cells, if_neg (by decide), if_pos rfl, integerTotals?] at hc
      by_cases hk : agg.kind = .integer
      · simp only [hk, if_true, Except.ok.injEq] at hc
        simp [← hc, h.exact_integer hk]
      · simp only [hk, if_false, Except.ok.injEq] at hc
        simp [← hc, totals, h.columns]
    · rw [cells_other agg ha hr] at hc
      cases hc

theorem render_of_invalid (agg : Aggregate Float) {spec : ReportSpec} {e : SpecError}
    (hv : spec.validate agg.arity = .error e) (mode : Mode) :
    agg.render spec mode = .error (.spec e) := by
  rw [render, hv]
  rfl

theorem render_of_cells_error {agg : Aggregate Float} {spec : ReportSpec} {mode : Mode}
    {e : Error} (hv : spec.validate agg.arity = .ok ()) (hc : agg.cells mode = .error e) :
    agg.render spec mode = .error e := by
  rw [render, hv, hc]
  rfl

theorem Shaped.render_of_cells {agg : Aggregate Float} (h : agg.Shaped) {spec : ReportSpec}
    {mode : Mode} {cells : List Cell} (hv : spec.validate agg.arity = .ok ())
    (hc : agg.cells mode = .ok cells) : agg.render spec mode = .ok (if spec.summary
      then spec.summaryText mode (spec.groups.map (ReportSpec.pairOf cells))
      else spec.pairText mode (spec.groups.map (ReportSpec.pairOf cells))) := by
  have hlayout := ReportSpec.layOut?_of_validate (h.length_cells hc ▸ hv) mode
  refine bind_eq_ok_iff.mpr ⟨(), mapError_eq_ok_iff.mpr hv, ?_⟩
  refine bind_eq_ok_iff.mpr ⟨cells, hc, ?_⟩
  rw [hlayout]
  rfl

theorem exists_render_raw {agg : Aggregate Float} (h : agg.Shaped) {spec : ReportSpec}
    (hv : spec.validate agg.arity = .ok ()) : ∃ text, agg.render spec .raw = .ok text := by
  obtain ⟨cells, hcells⟩ := agg.cells_raw
  exact ⟨_, h.render_of_cells hv hcells⟩

theorem exists_render_averaged {agg : Aggregate Float} (h : agg.Shaped) {spec : ReportSpec}
    (hv : spec.validate agg.arity = .ok ()) (hrows : agg.rows ≠ 0) :
    ∃ text, agg.render spec .averaged = .ok text :=
  ⟨_, h.render_of_cells hv (agg.cells_averaged.trans (if_neg hrows))⟩

theorem render_averaged_of_rows_eq_zero {agg : Aggregate Float} {spec : ReportSpec}
    (hv : spec.validate agg.arity = .ok ()) (hrows : agg.rows = 0) :
    agg.render spec .averaged = .error (.division .mean) :=
  render_of_cells_error hv (agg.cells_averaged.trans (if_pos hrows))

theorem validate_of_render {agg : Aggregate Float} {spec : ReportSpec} {mode : Mode}
    {text : Text} (h : agg.render spec mode = .ok text) : spec.validate agg.arity = .ok () := by
  obtain ⟨_, hv, -⟩ := bind_eq_ok_iff.mp h
  exact mapError_eq_ok_iff.mp hv

/-- How rendering can end. -/
inductive Rendered (agg : Aggregate Float) (spec : ReportSpec) (mode : Mode) :
    Except Error Text → Prop
  | invalid (e : SpecError) : spec.validate agg.arity = .error e →
      Rendered agg spec mode (.error (.spec e))
  | unknownMode : spec.validate agg.arity = .ok () → mode ≠ .averaged → mode ≠ .raw →
      Rendered agg spec mode (.error (.unknownMode mode.name))
  | noRows : spec.validate agg.arity = .ok () → mode = .averaged → agg.rows = 0 →
      Rendered agg spec mode (.error (.division .mean))
  | text (t : Text) : spec.validate agg.arity = .ok () →
      (mode = .raw ∨ mode = .averaged ∧ agg.rows ≠ 0) → Rendered agg spec mode (.ok t)

/-- **Rendering.**  The specification is checked first, then the mode. -/
theorem Shaped.rendered {agg : Aggregate Float} (h : agg.Shaped) (spec : ReportSpec)
    (mode : Mode) : Rendered agg spec mode (agg.render spec mode) := by
  cases hv : spec.validate agg.arity with
  | error e =>
    rw [render_of_invalid agg hv]
    exact .invalid e hv
  | ok _ =>
    by_cases ha : mode = .averaged
    · by_cases hrows : agg.rows = 0
      · rw [ha, render_averaged_of_rows_eq_zero hv hrows]
        exact .noRows hv rfl hrows
      · obtain ⟨t, ht⟩ := exists_render_averaged h hv hrows
        rw [ha, ht]
        exact .text t hv (.inr ⟨rfl, hrows⟩)
    · by_cases hr : mode = .raw
      · obtain ⟨t, ht⟩ := exists_render_raw h hv
        rw [hr, ht]
        exact .text t hv (.inl rfl)
      · rw [render_of_cells_error hv (cells_other agg ha hr)]
        exact .unknownMode hv ha hr

/-- Totals of whole numbers are shown exactly, and nothing else of them. -/
theorem render_raw_congr {agg agg' : Aggregate Float} (hk : agg.kind = .integer)
    (harity : agg.arity = agg'.arity) (ht : agg.integerTotals? = agg'.integerTotals?)
    (spec : ReportSpec) : agg.render spec .raw = agg'.render spec .raw := by
  have hcells : agg.cells .raw = agg'.cells .raw := by
    rw [integerTotals?, if_pos hk] at ht
    rw [cells, cells, if_neg (by decide), if_pos rfl, if_neg (by decide), if_pos rfl, ← ht,
      integerTotals?, if_pos hk]
  rw [render, render, harity, hcells]

end Aggregate

/-! ## The cells of whole numbers -/

namespace Cell

@[simp] theorem write_ofInteger (spec : ReportSpec) (mode : Mode) (n : Int64) :
    (ofInteger n).write spec mode = Text.ofInt n.toInt := rfl

@[simp] theorem isZero_ofInteger (n : Int64) : (ofInteger n).isZero = decide (n = 0) :=
  Bool.eq_iff_iff.mpr (by simp [isZero, ofInteger])

end Cell

namespace Aggregate

/-- The exact total of a column of whole numbers. -/
def exactTotal {α : Type} (agg : Aggregate α) (column : Int) : Int64 :=
  agg.exact.getD column.toNat 0

/-- A group with the exact totals of its columns. -/
def exactPair (agg : Aggregate Float) (g : Group) : ReportSpec.Pair :=
  ⟨g, .ofInteger (agg.exactTotal g.left), .ofInteger (agg.exactTotal g.right)⟩

variable {agg : Aggregate Float} {spec : ReportSpec}

theorem cells_raw_integer (hk : agg.kind = .integer) :
    agg.cells .raw = .ok (agg.exact.map Cell.ofInteger) := by
  rw [cells, if_neg (by decide), if_pos rfl, integerTotals?, if_pos hk]

theorem pairOf_exact (agg : Aggregate Float) :
    ReportSpec.pairOf (agg.exact.map Cell.ofInteger) = agg.exactPair := by
  funext g
  simp [ReportSpec.pairOf, ReportSpec.cellOf, exactPair, exactTotal]

/-- Of whole numbers, the exact totals are laid out. -/
theorem Shaped.render_raw_integer (h : agg.Shaped) (hk : agg.kind = .integer)
    (hv : spec.validate agg.arity = .ok ()) :
    agg.render spec .raw = .ok (if spec.summary
      then spec.summaryText .raw (spec.groups.map agg.exactPair)
      else spec.pairText .raw (spec.groups.map agg.exactPair)) := by
  rw [h.render_of_cells hv (cells_raw_integer hk), pairOf_exact]

end Aggregate

/-- What is joined stands behind the first part, a separator before each. -/
theorem Text.intercalate_cons (separator : UInt8) (t : Text) (ts : List Text) :
    [separator].intercalate (t :: ts) = t ++ ts.flatMap (separator :: ·) := by
  induction ts generalizing t with
  | nil => simp
  | cons u us ih => simp [ih]

end PerfReport
