import PerfReport.Proofs.Cli.Archiving
import PerfReport.Proofs.Cli.Concatenation
import PerfReport.Proofs.Report.Validated

/-!
# What a report reports

A report that was computed is of a layout of the configuration, of all that
the inputs held, and of inputs that could be read. Only a report of totals can
do without rows.

* `obtained_mergeInput`, `obtained_mergeInputs`: one input more, and all inputs;
* `RunCommand.report_ok`: what every report has;
* `deviationText_error`: why there may be no deviations.
-/

namespace PerfReport

namespace Cli

variable {δ : Type} [Database δ] {w : World δ} {l : Layout} {agg agg' : Aggregate Float}
  {path : Text}

theorem readInput_ok (h : readInput w l path = .ok agg) : ∃ bytes, w.read path = .ok bytes ∧
    agg = (l.newAggregate.readFrom bytes l.records).aggregate := by
  obtain ⟨bytes, hbytes, h⟩ := bind_eq_ok_iff.mp h
  refine ⟨bytes, mapError_eq_ok_iff.mp hbytes, ?_⟩
  simp only at h
  split at h
  · cases h
  · cases h
    rfl

theorem obtained_readInput (h : readInput w l path = .ok agg) : l.Obtained agg := by
  obtain ⟨bytes, -, rfl⟩ := readInput_ok h
  exact .read bytes l.records .new

/-- One input more. -/
theorem obtained_mergeInput (hagg : l.Obtained agg) (h : mergeInput w l agg path = .ok agg') :
    l.Obtained agg' := by
  obtain ⟨part, hpart, hm⟩ := mergeInput_eq_ok_iff.mp h
  have hafter : agg.afterCall (agg.merge [.other part]) = agg' := by rw [hm]; rfl
  rw [← hafter]
  refine hagg.merge [.other part] ?_
  intro o ho
  cases List.mem_singleton.mp ho
  exact (obtained_readInput hpart).reachable

/-- By induction over the inputs: those before are in the receiver. -/
theorem obtained_mergeInputs {paths : List Text} (hagg : l.Obtained agg)
    (h : paths.foldlM (mergeInput w l) agg = .ok agg') :
    l.Obtained agg' ∧ ∀ path ∈ paths, ∃ bytes, w.read path = .ok bytes := by
  induction paths generalizing agg with
  | nil =>
    cases h
    exact ⟨hagg, nofun⟩
  | cons path paths ih =>
    obtain ⟨agg₁, hm, hrest⟩ := bind_eq_ok_iff.mp h
    obtain ⟨hobtained, hread⟩ := ih (obtained_mergeInput hagg hm) hrest
    refine ⟨hobtained, List.forall_mem_cons.mpr ⟨?_, hread⟩⟩
    obtain ⟨part, hpart, -⟩ := mergeInput_eq_ok_iff.mp hm
    obtain ⟨bytes, hbytes, -⟩ := readInput_ok hpart
    exact ⟨bytes, hbytes⟩

/-- What a report has that was computed. -/
structure Reported (w : World δ) (c : Config) (r : RunCommand) (report : RunReport) : Prop where
  layout : c.layout r.options.layout = .ok report.layout
  obtained : report.layout.Obtained report.aggregate
  readable : ∀ path ∈ r.sources, ∃ bytes, w.read path = .ok bytes
  text : report.aggregate.render (report.layout.spec r.title) r.mode = .ok report.text
  rows : report.aggregate.rows = 0 → ∃ o inputs, r = .mean o inputs ∧ o.raw = true

/-- Averages are only shown of rows. -/
theorem rows_ne_zero_of_averaged {spec : ReportSpec} {text : Text} (h : agg.Shaped)
    (hr : agg.render spec .averaged = .ok text) : agg.rows ≠ 0 := by
  have hrendered := h.rendered spec .averaged
  rw [hr] at hrendered
  cases hrendered with
  | text _ _ hmode => exact (hmode.resolve_left (by decide)).2

/-- **Reports.**  Every report that is computed has all this. -/
theorem RunCommand.report_ok {c : Config} {r : RunCommand} {report : RunReport}
    (h : r.report w c = .ok report) : Reported w c r report := by
  cases r with
  | mean o inputs =>
    obtain ⟨l, hl, h⟩ := bind_eq_ok_iff.mp h
    obtain ⟨agg, hagg, h⟩ := bind_eq_ok_iff.mp h
    obtain ⟨text, htext, h⟩ := bind_eq_ok_iff.mp h
    cases h
    obtain ⟨hobtained, hread⟩ := obtained_mergeInputs .new hagg
    refine ⟨hl, hobtained, hread, htext, ?_⟩
    intro hrows
    refine ⟨o, inputs, rfl, ?_⟩
    by_contra hraw
    rw [modeOf, if_neg hraw] at htext
    exact rows_ne_zero_of_averaged hobtained.reachable.shaped htext hrows
  | summary o title input =>
    obtain ⟨l, hl, h⟩ := bind_eq_ok_iff.mp h
    obtain ⟨agg, hagg, h⟩ := bind_eq_ok_iff.mp h
    rw [guard_eq_ok_iff] at h
    obtain ⟨hrows, h⟩ := h
    obtain ⟨text, htext, h⟩ := bind_eq_ok_iff.mp h
    cases h
    obtain ⟨bytes, hbytes, -⟩ := readInput_ok hagg
    refine ⟨hl, obtained_readInput hagg, ?_, htext, fun hzero => absurd hzero hrows⟩
    exact List.forall_mem_singleton.mpr ⟨bytes, hbytes⟩

/-- Deviations are missing for want of rows or of a column. -/
theorem deviationText_error {report : RunReport} {e : Error} (h : deviationText report = .error e) :
    report.aggregate.rows = 0 ∧ e = .division .deviation ∨ e = .missingColumn := by
  rw [deviationText, Aggregate.deviation] at h
  by_cases hrows : report.aggregate.rows = 0
  · rw [if_pos hrows] at h
    cases h
    exact .inl ⟨hrows, rfl⟩
  · rw [if_neg hrows] at h
    simp only [bind, Except.bind] at h
    split at h
    · cases h
    · cases h
      exact .inr rfl

end Cli

end PerfReport
