import PerfReport.Proofs.Aggregate.Columns
import PerfReport.Proofs.Aggregate.Reachable
import PerfReport.Proofs.Report.Render

/-!
# Layouts that passed validation

A layout is validated against its own arity, and reading and merging never
change the arity of an aggregate, so a validated layout can show whatever
became of its aggregates. Archived aggregates may meet any specification; what
is checked then is their own arity, and a decoded aggregate has as many
columns as that says.

* `Layout.Obtained`: what reading and merging make of an empty aggregate;
* `Config.validate_entry`: all layouts of a validated configuration are sound;
* `Snapshot.shaped_of_decode`: decoded aggregates are in shape;
* `validated_layout_renders`: both kinds of aggregates, rendered.
-/

namespace PerfReport

namespace ReportSpec

theorem validate_title (l : Layout) (title : Text) (arity : Int) :
    (l.spec title).validate arity = (l.spec []).validate arity := rfl

end ReportSpec

/-! ## Aggregates of a layout -/

namespace Aggregate

theorem ingest_static {agg agg' : Aggregate Float} {line : Text}
    (h : agg.ingest line = .ok agg') : agg'.arity = agg.arity ∧ agg'.kind = agg.kind := by
  obtain ⟨-, values, -, ha⟩ | ⟨-, record, -, rfl⟩ := (ingest_eq_ok_iff agg agg' line).mp h
  · obtain ⟨harity, hkind, -⟩ := addIntegers_static ha
    exact ⟨harity, hkind⟩
  · exact ⟨rfl, rfl⟩

theorem readFrom_static (agg : Aggregate Float) (text : Text) (limit : Int) :
    (agg.readFrom text limit).aggregate.arity = agg.arity ∧
      (agg.readFrom text limit).aggregate.kind = agg.kind := by
  refine readFrom_invariant (P := fun a => a.arity = agg.arity ∧ a.kind = agg.kind) ?_ agg
    ⟨rfl, rfl⟩ text limit
  rintro a a' line ⟨harity, hkind⟩ hi
  obtain ⟨harity', hkind'⟩ := ingest_static hi
  exact ⟨harity'.trans harity, hkind'.trans hkind⟩

end Aggregate

namespace Layout

/-- What reading and merging can make of an empty aggregate. A read that fails
keeps the records before the failure, a merge that fails changes nothing; what
is merged may have come about in any way. -/
inductive Obtained (l : Layout) : Aggregate Float → Prop
  | new : Obtained l l.newAggregate
  | read {agg : Aggregate Float} (text : Text) (limit : Int) :
      Obtained l agg → Obtained l (agg.readFrom text limit).aggregate
  | merge {agg : Aggregate Float} (others : List (Operand Float)) :
      Obtained l agg → (∀ o, .other o ∈ others → o.Reachable) →
        Obtained l (agg.afterCall (agg.merge others))

variable {l : Layout} {agg : Aggregate Float}

theorem Obtained.reachable (h : l.Obtained agg) : agg.Reachable := by
  induction h with
  | new => exact .setFloor _ (.fresh _ _)
  | read text limit _ ih => exact .readFrom text limit ih
  | merge others _ ho ih => exact .merge others ih ho

theorem Obtained.static (h : l.Obtained agg) :
    agg.arity = l.arity.toNat ∧ agg.kind = l.kind := by
  induction h with
  | new => exact ⟨rfl, rfl⟩
  | @read agg text limit _ ih =>
    obtain ⟨harity, hkind⟩ := agg.readFrom_static text limit
    exact ⟨harity.trans ih.1, hkind.trans ih.2⟩
  | @merge agg others _ _ ih =>
    refine Aggregate.afterCall_of_ok
      (P := fun a => a.arity = l.arity.toNat ∧ a.kind = l.kind) ih ?_
    intro agg' hm
    obtain ⟨harity, hkind, -⟩ := Aggregate.merge_static hm
    exact ⟨harity.trans ih.1, hkind.trans ih.2⟩

/-- A sound layout is sound for all of its aggregates, under any title. -/
theorem Obtained.validate_spec (h : l.Obtained agg) (hv : l.validate = .ok ()) (title : Text) :
    (l.spec title).validate agg.arity = .ok () := by
  obtain ⟨hpos, hspec⟩ := validate_ok hv
  have harity : (agg.arity : Int) = l.arity := by
    rw [h.static.1]
    omega
  rw [ReportSpec.validate_title, harity, hspec]

end Layout

namespace Config

theorem forM_eq_ok {ε α : Type} {f : α → Except ε Unit} {xs : List α} (h : xs.forM f = .ok ())
    {x : α} (hx : x ∈ xs) : f x = .ok () := by
  induction xs with
  | nil => cases hx
  | cons y ys ih =>
    obtain ⟨_, hy, hys⟩ := bind_eq_ok_iff.mp h
    rcases List.mem_cons.mp hx with rfl | hx
    · exact hy
    · exact ih hys hx

theorem validate_entry {c : Config} (hc : c.validate = .ok ()) {name : Text} {l : Layout}
    (hl : (name, some l) ∈ c.layouts.entries) : l.validate = .ok () := by
  unfold validate at hc
  split at hc
  · cases hc
  · exact mapError_eq_ok_iff.mp (forM_eq_ok hc hl)

end Config

/-! ## Archived aggregates -/

/-- Whatever bytes are decoded, the aggregate is in shape. -/
theorem Snapshot.shaped_of_decode {bytes : Text} {s : Snapshot} (h : decode bytes = .ok s) :
    s.aggregate.Shaped := by
  obtain ⟨i, -, -, rfl⟩ := (decode_eq_ok_iff bytes s).mp h
  exact Aggregate.shaped_restore ..

/-- **A validated layout always renders.**  Take any layout of a configuration
that was accepted, any title, and any aggregate that reading and merging made
of an empty one of the layout: its totals are shown, and its means if and only
if it has rows; without rows the error is the division by zero. Any decoded
aggregate gives a text or one of three errors under any specification and any
mode, and it shows as many values as the specification was validated for, so
that no group names a column that is not there. -/
theorem validated_layout_renders :
    (∀ (c : Config) (name : Text) (l : Layout), c.validate = .ok () →
      (name, some l) ∈ c.layouts.entries → ∀ (title : Text) (agg : Aggregate Float),
      l.Obtained agg →
        (∃ text, agg.render (l.spec title) .raw = .ok text) ∧
        ((∃ text, agg.render (l.spec title) .averaged = .ok text) ↔ 0 < agg.rows) ∧
        (¬ 0 < agg.rows → agg.render (l.spec title) .averaged = .error (.division .mean))) ∧
    ∀ (bytes : Text) (s : Snapshot), Snapshot.decode bytes = .ok s →
      ∀ (spec : ReportSpec) (mode : Mode),
        s.aggregate.Rendered spec mode (s.aggregate.render spec mode) ∧
        s.aggregate.render spec mode ≠ .error .missingColumn ∧
        ∀ cells, spec.validate s.aggregate.arity = .ok () → s.aggregate.cells mode = .ok cells →
          ∀ g ∈ spec.groups, ReportSpec.inRange g.left cells.length = true ∧
            ReportSpec.inRange g.right cells.length = true := by
  constructor
  · intro c name l hc hl title agg h
    have hv := h.validate_spec (c.validate_entry hc hl) title
    have hshaped := h.reachable.shaped
    have hpos : 0 < agg.rows ↔ agg.rows ≠ 0 := UInt64.pos_iff_ne_zero
    have hempty (hrows : ¬ 0 < agg.rows) :
        agg.render (l.spec title) .averaged = .error (.division .mean) :=
      Aggregate.render_averaged_of_rows_eq_zero hv (not_not.mp (hpos.not.mp hrows))
    refine ⟨Aggregate.exists_render_raw hshaped hv, ⟨?_, ?_⟩, hempty⟩
    · rintro ⟨text, htext⟩
      by_contra hrows
      rw [hempty hrows] at htext
      cases htext
    · intro hrows
      exact Aggregate.exists_render_averaged hshaped hv (hpos.mp hrows)
  · intro bytes s hs spec mode
    have hshaped := Snapshot.shaped_of_decode hs
    have hrendered := hshaped.rendered spec mode
    refine ⟨hrendered, ?_, ?_⟩
    · intro hmissing
      rw [hmissing] at hrendered
      cases hrendered
    · intro cells hv hcells
      rw [hshaped.length_cells hcells]
      exact ReportSpec.inRange_of_validate hv

/-- Whole numbers in two columns, under one label. -/
def crossed : Layout where
  arity := 2
  numeric := [105, 110, 116]
  groups := [{ label := [110], left := 1, right := 0 }]

def crossedConfig : Config where
  layouts := Layouts.empty.insert [99] (some crossed)

theorem crossed_renders : crossedConfig.validate = .ok () ∧
    (∃ text, (crossed.newAggregate.readFrom [49, 32, 50, 10] 0).aggregate.render
      (crossed.spec [116]) .averaged = .ok text) ∧
    crossed.newAggregate.render (crossed.spec [116]) .averaged = .error (.division .mean) := by
  obtain ⟨hlayout, -⟩ := validated_layout_renders
  have hvalid : crossedConfig.validate = .ok () := rfl
  have hrender := hlayout crossedConfig [99] crossed hvalid (List.mem_singleton_self _) [116]
  have hrows : 0 < (crossed.newAggregate.readFrom [49, 32, 50, 10] 0).aggregate.rows := by decide
  refine ⟨hvalid, ?_, ?_⟩
  · exact (hrender _ (.read _ _ .new)).2.1.mpr hrows
  · exact (hrender _ .new).2.2 (by decide)

end PerfReport
