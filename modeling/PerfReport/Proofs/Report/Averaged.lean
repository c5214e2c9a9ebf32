import PerfReport.Proofs.Number.Fixed
import PerfReport.Proofs.Report.Render

/-!
# Means shown

A pair report of the means, taken apart into its fields, and what the numerals
in them say of the means.

* `ReportSpec.pairText_averaged`: labels and numerals, each in its column;
* `averages_nearest`: every numeral is the mean rounded to the last place shown.
-/

namespace PerfReport

namespace ReportSpec

/-- A label and what is shown of a value, brought to their widths by blanks. -/
def field (spec : ReportSpec) (label shown : Text) : Text :=
  label ++ Text.filler spec.labelColumn label ++ ": " ++
    (Text.filler spec.valueColumn shown ++ shown)

/-- The lines of a pair report that shows `shown` of every column. -/
def fieldLines (spec : ReportSpec) (shown : Int → Text) : Text :=
  [10].intercalate (spec.groups.map fun g =>
    spec.field g.shownLeft (shown g.left) ++ "    " ++ spec.field g.shownRight (shown g.right))

/-- A specification that was validated has no negative number of places. -/
theorem decimals_nonneg_of_validate {spec : ReportSpec} {arity : Int}
    (h : spec.validate arity = .ok ()) : 0 ≤ spec.decimals := by
  unfold validate at h
  rw [decimals]
  split at h
  · cases h
  · split at h
    · next p hp =>
      split at h
      · cases h
      · next hnonneg =>
        rw [hp]
        exact Int.not_lt.mp hnonneg
    · next hp =>
      rw [hp]
      decide

theorem write_averaged {spec : ReportSpec} (h : 0 ≤ spec.decimals) (x : Float) :
    (Cell.ofFloat x).write spec .averaged = Fixed.write spec.decimals.toNat x := by
  rw [Cell.write]
  simp only [Cell.ofFloat]
  rw [if_neg (by decide), if_neg (by omega)]

theorem labelled_averaged {spec : ReportSpec} (h : 0 ≤ spec.decimals)
    (hlabel : spec.labelColumn ≤ Text.maxWidth) (hvalue : spec.valueColumn ≤ Text.maxWidth)
    (label : Text) (x : Float) : spec.labelled .averaged label (.ofFloat x) =
      spec.field label (Fixed.write spec.decimals.toNat x) := by
  rw [labelled, write_averaged h, Text.padRight, if_neg (by omega), Text.padLeft,
    if_neg (by omega), field]

/-- The mean of a column, among those of all. -/
def meanOf (means : List Float) (column : Int) : Float := means.getD column.toNat 0.0

theorem getElem?_of_inRange {means : List Float} {column : Int}
    (h : inRange column means.length = true) :
    0 ≤ column ∧ means[column.toNat]? = some (meanOf means column) := by
  simp only [inRange, Bool.and_eq_true, decide_eq_true_eq] at h
  have hlt : column.toNat < means.length := by omega
  rw [meanOf, List.getD_eq_getElem?_getD, List.getElem?_eq_getElem hlt]
  exact ⟨h.1, rfl⟩

theorem cellOf_ofFloat {means : List Float} {column : Int}
    (h : inRange column means.length = true) :
    cellOf (means.map Cell.ofFloat) column = .ofFloat (meanOf means column) := by
  rw [cellOf, List.getD_eq_getElem?_getD, List.getElem?_map, (getElem?_of_inRange h).2]
  rfl

theorem pairText_averaged {spec : ReportSpec} {means : List Float}
    (hv : spec.validate means.length = .ok ()) (hlabel : spec.labelColumn ≤ Text.maxWidth)
    (hvalue : spec.valueColumn ≤ Text.maxWidth) :
    spec.pairText .averaged (spec.groups.map (pairOf (means.map Cell.ofFloat))) =
      spec.fieldLines fun column => Fixed.write spec.decimals.toNat (meanOf means column) := by
  have hplaces := decimals_nonneg_of_validate hv
  rw [pairText, fieldLines, List.map_map]
  congr 1
  refine List.map_congr_left fun g hg => ?_
  obtain ⟨hleft, hright⟩ := inRange_of_validate hv g hg
  rw [Function.comp_apply, pairLine, pairOf, cellOf_ofFloat hleft, cellOf_ofFloat hright,
    labelled_averaged hplaces hlabel hvalue, labelled_averaged hplaces hlabel hvalue]

end ReportSpec

namespace Aggregate

open ReportSpec

/-- With rows there is a mean of every column, and these are shown. -/
theorem Shaped.exists_mean {agg : Aggregate Float} (h : agg.Shaped) (hrows : agg.rows ≠ 0) :
    ∃ means, agg.mean = .ok means ∧ means.length = agg.arity ∧
      agg.cells .averaged = .ok (means.map Cell.ofFloat) := by
  refine ⟨agg.columns.map fun c => quotient c.sum agg.rows agg.floor, ?_, ?_, ?_⟩
  · rw [mean, if_neg hrows]
  · rw [List.length_map, h.columns]
  · rw [cells_averaged, if_neg hrows]

/-- **Means to the last place.**  A pair report of the means has, in the columns
of its groups, numerals with as many places as the specification asks for, two
if it does not say and none if it asks for none. What is shown of a mean that is
finite is the multiple of the last place that is nearest to the exact value of
the mean, and between two the one with the even last digit; so it is off by half
a unit of the last place at most. -/
theorem averages_nearest {agg : Aggregate Float} (h : agg.Shaped) (hrows : agg.rows ≠ 0)
    {spec : ReportSpec} (hs : spec.summary = false) (hv : spec.validate agg.arity = .ok ())
    (hlabel : spec.labelColumn ≤ Text.maxWidth) (hvalue : spec.valueColumn ≤ Text.maxWidth) :
    ∃ (places : ℕ) (means : List Float) (shown : Int → Text),
      (places : ℤ) = spec.precision.getD 2 ∧ agg.mean = .ok means ∧
      agg.render spec .averaged = .ok (spec.fieldLines shown) ∧
      ∀ g ∈ spec.groups, ∀ column ∈ [g.left, g.right], 0 ≤ column ∧
        ∃ v, means[column.toNat]? = some v ∧
          ∀ q, (Binary64.Value.ofFloat v).rational? = some q →
            ∃ k : ℤ, Fixed.SpellsSigned places (shown column) (k / 10 ^ places) ∧
              Nearest (10 ^ places) q k ∧ |q - k / 10 ^ places| ≤ 1 / 10 ^ places / 2 := by
  have hplaces := decimals_nonneg_of_validate hv
  obtain ⟨means, hmean, hlength, hcells⟩ := h.exists_mean hrows
  have hrender := h.render_of_cells hv hcells
  rw [← hlength] at hv
  rw [if_neg (by simp [hs]), pairText_averaged hv hlabel hvalue] at hrender
  refine ⟨spec.decimals.toNat, means, _, Int.toNat_of_nonneg hplaces, hmean, hrender, ?_⟩
  intro g hg column hcolumn
  have hin : inRange column means.length = true := by
    obtain ⟨hleft, hright⟩ := inRange_of_validate hv g hg
    rcases List.mem_pair.mp hcolumn with rfl | rfl
    · exact hleft
    · exact hright
  obtain ⟨hnonneg, hmember⟩ := getElem?_of_inRange hin
  refine ⟨hnonneg, _, hmember, fun q hq => ?_⟩
  obtain ⟨k, hspells, hnearest⟩ := Fixed.write_nearest hq
  exact ⟨k, hspells, hnearest, hnearest.half (by positivity)⟩

/-- Two rows with means halfway between whole numbers, one of them negative. -/
def halves : Aggregate Float := ((fresh 2 .float).readFrom "-1 2\n0 3\n" 0).aggregate

/-- No places at all. -/
def wholly : ReportSpec where
  groups := [{ label := "size", left := 0, right := 1 }]
  precision := some 0

/-- Both means go to the even side, one of them up and the other down. -/
theorem averages_nearest_halves : ∃ shown : Int → Text,
    halves.render wholly .averaged = .ok (wholly.fieldLines shown) ∧
      Fixed.SpellsSigned 0 (shown 0) 0 ∧ Fixed.SpellsSigned 0 (shown 1) 2 := by
  have hshaped : halves.Shaped := (shaped_fresh 2 .float).readFrom _ 0
  have hmeans : halves.mean =
      .ok [Float.ofBits 0xBFE0000000000000, Float.ofBits 0x4004000000000000] := by decide +kernel
  have hleft : Binary64.Value.ofFloat (Float.ofBits 0xBFE0000000000000) =
      .finite true 4503599627370496 (-53) := by decide +kernel
  have hright : Binary64.Value.ofFloat (Float.ofBits 0x4004000000000000) =
      .finite false 5629499534213120 (-51) := by decide +kernel
  have hrows : halves.rows ≠ 0 := by decide +kernel
  have hvalid : wholly.validate halves.arity = .ok () := rfl
  obtain ⟨places, means, shown, hplaces, hmean, hrender, hfields⟩ :=
    averages_nearest hshaped hrows rfl hvalid (by decide) (by decide)
  obtain rfl : places = 0 := by
    have : (places : ℤ) = 0 := hplaces
    omega
  rw [hmeans] at hmean
  cases hmean
  have hzero : Nearest (10 ^ 0) (-1 / 2) 0 :=
    .of_half (by norm_num) (by norm_num [abs_of_neg]) fun _ => by decide
  have htwo : Nearest (10 ^ 0) (5 / 2) 2 :=
    .of_half (by norm_num) (by norm_num) fun _ => by decide
  refine ⟨shown, hrender, ?_, ?_⟩
  · obtain ⟨-, v, hv, hshown⟩ := hfields _ List.mem_cons_self 0 List.mem_cons_self
    cases hv
    obtain ⟨k, hspells, hnearest, -⟩ :=
      hshown (-1 / 2) (by rw [hleft]; norm_num [Binary64.Value.rational?])
    rw [hzero.unique (by norm_num) hnearest] at hspells
    simpa using hspells
  · obtain ⟨-, v, hv, hshown⟩ :=
      hfields _ List.mem_cons_self 1 (List.mem_cons_of_mem _ List.mem_cons_self)
    cases hv
    obtain ⟨k, hspells, hnearest, -⟩ :=
      hshown (5 / 2) (by rw [hright]; norm_num [Binary64.Value.rational?])
    rw [htwo.unique (by norm_num) hnearest] at hspells
    simpa using hspells

end Aggregate

end PerfReport
