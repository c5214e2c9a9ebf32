import PerfReport.Proofs.Text.Glyph
import PerfReport.Text.Blank

/-!
# Runs between blanks

The fields of a text against what they should be: the maximal runs of glyphs
that are not white space, in their order, under the one reading of the bytes.

* `Text.Runs`: the maximal runs of a sequence of glyphs;
* `Text.runs_iff`: splitting from the right finds them;
* `Text.splits_iff`: so every text has one list of runs, its fields.
-/

namespace PerfReport.Text

/-- The maximal runs of glyphs that are not blank: before a run there are only
blanks, and behind it a blank or the end. -/
inductive Runs : List Glyph → List Text → Prop
  | blanks {gs : List Glyph} (h : ∀ g ∈ gs, g.isBlank = true) : Runs gs []
  | run {before run after : List Glyph} {runs : List Text}
      (hbefore : ∀ g ∈ before, g.isBlank = true) (hne : run ≠ [])
      (hrun : ∀ g ∈ run, g.isBlank = false) (hafter : ∀ g ∈ after.head?, g.isBlank = true)
      (rest : Runs after runs) :
      Runs (before ++ run ++ after) (ofGlyphs run :: runs)

/-- The text is read as glyphs, and these are its runs. -/
def Splits (t : Text) (runs : List Text) : Prop := ∃ gs, Decodes t gs ∧ Runs gs runs

/-! ## Splitting from the right -/

/-- The bytes of the open run on the left, and the runs behind it. -/
def splitRuns (gs : List Glyph) : Text × List Text := gs.foldr fieldStep ([], [])

/-- The runs with the open one among them. -/
def closeRuns (gs : List Glyph) : List Text := pushRun (splitRuns gs).1 (splitRuns gs).2

theorem splitRuns_cons_blank {g : Glyph} (hg : g.isBlank = true) (gs : List Glyph) :
    splitRuns (g :: gs) = ([], closeRuns gs) := by
  rw [splitRuns, List.foldr_cons, fieldStep, if_pos hg]
  rfl

theorem splitRuns_cons {g : Glyph} (hg : g.isBlank = false) (gs : List Glyph) :
    splitRuns (g :: gs) = (g.bytes ++ (splitRuns gs).1, (splitRuns gs).2) := by
  rw [splitRuns, List.foldr_cons, fieldStep, if_neg (by simp [hg])]
  rfl

theorem closeRuns_blanks {before : List Glyph} (h : ∀ g ∈ before, g.isBlank = true)
    (gs : List Glyph) : closeRuns (before ++ gs) = closeRuns gs := by
  induction before with
  | nil => rfl
  | cons g before ih =>
    obtain ⟨hg, hbefore⟩ := List.forall_mem_cons.mp h
    rw [List.cons_append, closeRuns, splitRuns_cons_blank hg, ih hbefore]
    rfl

theorem splitRuns_run {run : List Glyph} (h : ∀ g ∈ run, g.isBlank = false) (gs : List Glyph) :
    splitRuns (run ++ gs) = (ofGlyphs run ++ (splitRuns gs).1, (splitRuns gs).2) := by
  induction run with
  | nil => rfl
  | cons g run ih =>
    obtain ⟨hg, hrun⟩ := List.forall_mem_cons.mp h
    rw [List.cons_append, splitRuns_cons hg, ih hrun]
    simp [ofGlyphs]

/-- In front of a blank no run is open. -/
theorem splitRuns_of_head {gs : List Glyph} (h : ∀ g ∈ gs.head?, g.isBlank = true) :
    splitRuns gs = ([], closeRuns gs) := by
  cases gs with
  | nil => rfl
  | cons g gs =>
    have hg : g.isBlank = true := h g rfl
    rw [closeRuns, splitRuns_cons_blank hg]
    rfl

theorem ofGlyphs_ne_nil {gs : List Glyph} (h : gs ≠ []) : ofGlyphs gs ≠ [] := by
  obtain ⟨g, gs, rfl⟩ := List.exists_cons_of_ne_nil h
  simp [ofGlyphs, Glyph.bytes_ne_nil]

theorem closeRuns_run {run after : List Glyph} (hne : run ≠ [])
    (hrun : ∀ g ∈ run, g.isBlank = false) (hafter : ∀ g ∈ after.head?, g.isBlank = true) :
    closeRuns (run ++ after) = ofGlyphs run :: closeRuns after := by
  rw [closeRuns, splitRuns_run hrun, splitRuns_of_head hafter, List.append_nil, pushRun,
    if_neg (by simp [ofGlyphs_ne_nil hne])]

/-! ## The runs are those that are found -/

theorem Runs.eq_closeRuns {gs : List Glyph} {runs : List Text} (h : Runs gs runs) :
    runs = closeRuns gs := by
  induction h with
  | blanks h =>
    have hclose := closeRuns_blanks h []
    rw [List.append_nil] at hclose
    exact hclose.symm
  | run hbefore hne hrun hafter _ ih =>
    rw [List.append_assoc, closeRuns_blanks hbefore, closeRuns_run hne hrun hafter, ih]

theorem Runs.cons_blank {g : Glyph} (hg : g.isBlank = true) {gs : List Glyph} {runs : List Text}
    (h : Runs gs runs) : Runs (g :: gs) runs := by
  cases h with
  | blanks h => exact .blanks (List.forall_mem_cons.mpr ⟨hg, h⟩)
  | run hbefore hne hrun hafter rest =>
    exact .run (List.forall_mem_cons.mpr ⟨hg, hbefore⟩) hne hrun hafter rest

/-- A glyph that is not blank is a run of its own if a blank follows, and
belongs to the run that follows otherwise. -/
theorem Runs.exists_cons {g : Glyph} (hg : g.isBlank = false) {gs : List Glyph}
    {runs : List Text} (h : Runs gs runs) : ∃ all, Runs (g :: gs) all := by
  have hnone : ∀ b ∈ ([] : List Glyph), b.isBlank = true := nofun
  have hone : ∀ b ∈ [g], b.isBlank = false := List.forall_mem_singleton.mpr hg
  cases h with
  | blanks hblanks =>
    have hhead : ∀ b ∈ gs.head?, b.isBlank = true :=
      fun b hb => hblanks b (List.mem_of_mem_head? hb)
    exact ⟨_, .run hnone (List.cons_ne_nil g []) hone hhead (.blanks hblanks)⟩
  | @run before run after runs hbefore hne hrun hafter rest =>
    cases before with
    | nil =>
      exact ⟨_, .run hnone (List.cons_ne_nil g run) (List.forall_mem_cons.mpr ⟨hg, hrun⟩) hafter
        rest⟩
    | cons b before =>
      have hhead : ∀ c ∈ (b :: before ++ run ++ after).head?, c.isBlank = true := by
        rintro c ⟨⟩
        exact hbefore b List.mem_cons_self
      exact ⟨_, .run hnone (List.cons_ne_nil g []) hone hhead
        (.run hbefore hne hrun hafter rest)⟩

theorem exists_runs (gs : List Glyph) : ∃ runs, Runs gs runs := by
  induction gs with
  | nil => exact ⟨[], .blanks nofun⟩
  | cons g gs ih =>
    obtain ⟨runs, h⟩ := ih
    cases hg : g.isBlank with
    | true => exact ⟨runs, h.cons_blank hg⟩
    | false => exact h.exists_cons hg

theorem runs_iff (gs : List Glyph) (runs : List Text) : Runs gs runs ↔ runs = closeRuns gs := by
  refine ⟨Runs.eq_closeRuns, fun h => ?_⟩
  obtain ⟨found, hfound⟩ := exists_runs gs
  rwa [h, ← hfound.eq_closeRuns]

/-- **Every text has one list of runs,** and the fields of the text are it. -/
theorem splits_iff (t : Text) (runs : List Text) : Splits t runs ↔ runs = t.fields := by
  constructor
  · rintro ⟨gs, hgs, hruns⟩
    rw [(decodes_iff t gs).mp hgs] at hruns
    exact hruns.eq_closeRuns
  · rintro rfl
    exact ⟨t.glyphs, decodes_glyphs t, (runs_iff _ _).mpr rfl⟩

/-! ## No runs -/

/-- By induction from the right, as fields are split. -/
theorem closeRuns_eq_nil_iff (gs : List Glyph) :
    closeRuns gs = [] ↔ gs.all Glyph.isBlank = true := by
  induction gs with
  | nil => exact iff_of_true rfl rfl
  | cons g gs ih =>
    rw [List.all_cons]
    cases hg : g.isBlank with
    | true => simpa [closeRuns, splitRuns_cons_blank hg, pushRun] using ih
    | false => simp [closeRuns, splitRuns_cons hg, pushRun, Glyph.bytes_ne_nil]

/-- A line is blank if it has no fields, whatever its bytes. -/
theorem isBlankText_iff (line : Text) : line.isBlankText = true ↔ line.fields = [] :=
  (closeRuns_eq_nil_iff line.glyphs).symm

end PerfReport.Text
