import PerfReport.Cli.Run
import PerfReport.Proofs.Aggregate.Accepted
import PerfReport.Proofs.Reading
import PerfReport.Proofs.Report.Render

/-!
# Several files and their concatenation

A mean over several files reads each of them into an aggregate of its own and
merges these one by one. If every file ends with a newline, the merged
aggregate has collected the records of the concatenation. An aggregate of its
own also has totals of its own, though: a file of whole numbers can be refused
that, behind the files before it, would have been read.

* `Layout.read_eq_none_iff`: which texts a fresh aggregate reads to the end;
* `collected_mergeInputs`: what the merged aggregate has collected;
* `exists_mergeInputs_iff`: when all files are accepted;
* `files_as_concatenation`: figures and report, compared.
-/

namespace PerfReport

open Aggregate (Collected)

namespace Layout

/-- The records of a text. -/
def entries (l : Layout) (t : Text) : List Entry :=
  Entry.ofLines l.arity.toNat l.kind t.recordLines

/-- Every line fits the buffer, and is blank or a record. -/
def Reads (l : Layout) (t : Text) : Prop :=
  t.Fitting ∧ ∀ line ∈ t.recordLines, ∃ e, Entry.ofLine l.arity.toNat l.kind line = .ok e

/-- No total of whole numbers leaves the 64-bit range, after any number of the
records. -/
def StaysInRange (l : Layout) (es : List Entry) : Prop :=
  ∀ k, Entry.TotalsFit l.arity.toNat l.kind (es.take k)

variable {l : Layout}

theorem StaysInRange.left {es es' : List Entry} (h : l.StaysInRange (es ++ es')) :
    Entry.TotalsFit l.arity.toNat l.kind es := by
  simpa using h es.length

theorem collected_newAggregate (l : Layout) : Collected l.newAggregate [] :=
  .setFloor _ (.fresh _ _)

/-- **One text.**  A fresh aggregate reads it to its end unless it is no log of
the layout or a total leaves the range. -/
theorem read_eq_none_iff (l : Layout) (t : Text) :
    (l.newAggregate.readFrom t 0).error = none ↔ l.Reads t ∧ l.StaysInRange (l.entries t) := by
  have hok : (l.newAggregate.readFrom t 0).error = none ↔
      t.Fitting ∧ ∃ agg, t.recordLines.foldlM Aggregate.ingest l.newAggregate = .ok agg := by
    constructor
    · intro h
      obtain ⟨hf, hread⟩ := (Aggregate.readFrom_eq_ok_iff _ _ t).mp ⟨h, rfl⟩
      exact ⟨hf, _, hread⟩
    · rintro ⟨hf, agg, hread⟩
      exact ((Aggregate.readFrom_eq_ok_iff _ agg t).mpr ⟨hf, hread⟩).1
  rw [hok, l.collected_newAggregate.exists_foldlM_ingest_iff, Reads, and_assoc]
  rfl

theorem collected_read {t : Text} (h : (l.newAggregate.readFrom t 0).error = none) :
    Collected (l.newAggregate.readFrom t 0).aggregate (l.entries t) ∧
      (l.newAggregate.readFrom t 0).aggregate.arity = l.arity.toNat ∧
      (l.newAggregate.readFrom t 0).aggregate.kind = l.kind := by
  obtain ⟨-, hread⟩ := (Aggregate.readFrom_eq_ok_iff _ _ t).mp ⟨h, rfl⟩
  exact l.collected_newAggregate.foldlM_ingest hread

/-- A log that is put together from closed texts is one of each. -/
theorem Reads.of_flatten {files : List Text} (hc : ∀ f ∈ files, f.Closed)
    (h : l.Reads files.flatten) : (∀ f ∈ files, l.Reads f) ∧
      l.entries files.flatten = (files.map l.entries).flatten := by
  obtain ⟨hfit, hlines⟩ := Text.lines_flatten hc h.1
  constructor
  · intro f hf
    refine ⟨hfit f hf, ?_⟩
    intro line hline
    apply h.2 line
    rw [hlines]
    exact List.mem_flatten_of_mem (List.mem_map_of_mem hf) hline
  · rw [entries, hlines, Entry.ofLines, List.filterMap_flatten, List.map_map]
    rfl

end Layout

namespace Cli

variable {δ : Type} [Database δ] {w : World δ} {l : Layout} {path f : Text}
  {paths files : List Text} {agg agg' part : Aggregate Float} {es : List Entry}

theorem readInput_eq_ok_iff (hf : w.read path = .ok f) :
    readInput w l path = .ok part ↔ (l.newAggregate.readFrom f l.records).error = none ∧
      (l.newAggregate.readFrom f l.records).aggregate = part := by
  simp only [readInput, bind_eq_ok_iff, mapError_eq_ok_iff, hf, Except.ok.injEq, exists_eq_left']
  cases (l.newAggregate.readFrom f l.records).error with
  | none => simp [pure, Except.pure]
  | some e => simp [throw, throwThe, MonadExceptOf.throw]

theorem mergeInput_eq_ok_iff : mergeInput w l agg path = .ok agg' ↔
    ∃ part, readInput w l path = .ok part ∧ agg.merge [.other part] = .ok agg' := by
  rw [mergeInput, bind_eq_ok_iff]
  simp only [mapError_eq_ok_iff]

/-! ## One file more -/

/-- What a file brings is what it holds. -/
theorem collected_mergeInput (hrecords : l.records = 0) (hf : w.read path = .ok f)
    (h : Collected agg es) (hm : mergeInput w l agg path = .ok agg') :
    Collected agg' (es ++ l.entries f) ∧ agg'.arity = agg.arity ∧ agg'.kind = agg.kind := by
  obtain ⟨part, hpart, hm⟩ := mergeInput_eq_ok_iff.mp hm
  rw [readInput_eq_ok_iff hf, hrecords] at hpart
  obtain ⟨hread, rfl⟩ := hpart
  obtain ⟨harity, hkind, -⟩ := Aggregate.merge_static hm
  exact ⟨h.merge_one (Layout.collected_read hread).1 hm, harity, hkind⟩

/-- A file has to stay in range on its own, and its totals with those before
it. -/
theorem exists_mergeInput_iff (hrecords : l.records = 0) (hf : w.read path = .ok f)
    (h : Collected agg es) (harity : agg.arity = l.arity.toNat) (hkind : agg.kind = l.kind)
    (hreads : l.Reads f) (htotals : Entry.TotalsFit l.arity.toNat l.kind (es ++ l.entries f)) :
    (∃ agg', mergeInput w l agg path = .ok agg') ↔ l.StaysInRange (l.entries f) := by
  simp only [mergeInput_eq_ok_iff, readInput_eq_ok_iff hf, hrecords]
  constructor
  · rintro ⟨agg', part, ⟨hread, -⟩, -⟩
    exact ((l.read_eq_none_iff f).mp hread).2
  · intro hrange
    have hread := (l.read_eq_none_iff f).mpr ⟨hreads, hrange⟩
    obtain ⟨hpart, harity', hkind'⟩ := Layout.collected_read hread
    have hc : agg.Compatible (l.newAggregate.readFrom f 0).aggregate :=
      ⟨harity'.trans harity.symm, hkind'.trans hkind.symm⟩
    rw [← harity, ← hkind, ← h.exists_merge_iff hpart hc] at htotals
    obtain ⟨agg', hm⟩ := htotals
    exact ⟨agg', _, ⟨hread, rfl⟩, hm⟩

/-! ## All files -/

/-- By induction over the files: the receiver has collected those before. -/
theorem collected_mergeInputs (hrecords : l.records = 0)
    (hfiles : List.Forall₂ (fun path f => w.read path = .ok f) paths files)
    (h : Collected agg es) (hm : paths.foldlM (mergeInput w l) agg = .ok agg') :
    Collected agg' (es ++ (files.map l.entries).flatten) ∧
      agg'.arity = agg.arity ∧ agg'.kind = agg.kind := by
  induction hfiles generalizing agg es with
  | nil =>
    cases hm
    simpa using h
  | cons hf _ ih =>
    rw [List.foldlM_cons] at hm
    obtain ⟨next, hnext, hm⟩ := bind_eq_ok_iff.mp hm
    obtain ⟨h', harity, hkind⟩ := collected_mergeInput hrecords hf h hnext
    obtain ⟨h'', harity', hkind'⟩ := ih h' hm
    refine ⟨?_, harity'.trans harity, hkind'.trans hkind⟩
    simpa using h''

/-- The totals of the receiver are those of the concatenation so far, so that
no merge is refused; what is left to fail is a file on its own. -/
theorem exists_mergeInputs_iff (hrecords : l.records = 0)
    (hfiles : List.Forall₂ (fun path f => w.read path = .ok f) paths files)
    (h : Collected agg es) (harity : agg.arity = l.arity.toNat) (hkind : agg.kind = l.kind)
    (hreads : ∀ f ∈ files, l.Reads f)
    (hrange : l.StaysInRange (es ++ (files.map l.entries).flatten)) :
    (∃ agg', paths.foldlM (mergeInput w l) agg = .ok agg') ↔
      ∀ f ∈ files, l.StaysInRange (l.entries f) := by
  induction hfiles generalizing agg es with
  | nil => simp [pure, Except.pure]
  | @cons path f paths files hf _ ih =>
    obtain ⟨hreads, hreads'⟩ := List.forall_mem_cons.mp hreads
    rw [List.map_cons, List.flatten_cons, ← List.append_assoc] at hrange
    have hfirst := exists_mergeInput_iff hrecords hf h harity hkind hreads hrange.left
    have hrest {next : Aggregate Float} (hnext : mergeInput w l agg path = .ok next) :
        (∃ agg', paths.foldlM (mergeInput w l) next = .ok agg') ↔
          ∀ f ∈ files, l.StaysInRange (l.entries f) := by
      obtain ⟨h', harity', hkind'⟩ := collected_mergeInput hrecords hf h hnext
      exact ih h' (harity'.trans harity) (hkind'.trans hkind) hreads' hrange
    simp only [List.foldlM_cons, bind_eq_ok_iff, List.forall_mem_cons]
    constructor
    · rintro ⟨agg', next, hnext, hm⟩
      exact ⟨hfirst.mp ⟨next, hnext⟩, (hrest hnext).mp ⟨agg', hm⟩⟩
    · rintro ⟨hown, hothers⟩
      obtain ⟨next, hnext⟩ := hfirst.mpr hown
      obtain ⟨agg', hm⟩ := (hrest hnext).mpr hothers
      exact ⟨agg', next, hnext, hm⟩

theorem collected_readInputs (hrecords : l.records = 0)
    (hfiles : List.Forall₂ (fun path f => w.read path = .ok f) paths files)
    (hr : readInputs w l paths = .ok agg) :
    Collected agg (files.map l.entries).flatten ∧
      agg.arity = l.arity.toNat ∧ agg.kind = l.kind :=
  collected_mergeInputs hrecords hfiles l.collected_newAggregate hr

theorem exists_readInputs_iff (hrecords : l.records = 0)
    (hfiles : List.Forall₂ (fun path f => w.read path = .ok f) paths files)
    (hreads : ∀ f ∈ files, l.Reads f) (hrange : l.StaysInRange (files.map l.entries).flatten) :
    (∃ agg, readInputs w l paths = .ok agg) ↔ ∀ f ∈ files, l.StaysInRange (l.entries f) :=
  exists_mergeInputs_iff hrecords hfiles l.collected_newAggregate rfl rfl hreads hrange

/-! ## Reports -/

theorem archiveRun_out (s : Session δ) (skip : Bool) (snapshot : Snapshot) (out : Text) :
    (s.archiveRun skip snapshot out).out = out := by
  unfold Session.archiveRun
  split
  · rfl
  · simp only
    split <;> rfl

/-- What is printed depends on nothing but the text of the report. -/
theorem runMean_out (s : Session δ) (now : Int64) {o : RunOptions} (ho : o.stddev = false)
    (inputs : List Text) : (s.runMean now o inputs).out =
      match (meanReport s.world s.config o inputs).map RunReport.text with
      | .ok text => line text
      | .error _ => [] := by
  rw [Session.runMean]
  cases meanReport s.world s.config o inputs with
  | error e => rfl
  | ok r =>
    simp only [ho, Bool.false_eq_true, if_false]
    exact archiveRun_out ..

theorem meanReport_eq {c : Config} {o : RunOptions} (hl : c.layout o.layout = .ok l)
    (hr : readInputs w l paths = .ok agg) : meanReport w c o paths =
      (agg.render (l.spec []) (modeOf o.raw)).map (RunReport.mk l agg) := by
  rw [meanReport, hl]
  simp only [bind, Except.bind, hr]
  cases agg.render (l.spec []) (modeOf o.raw) <;> rfl

theorem meanReport_raw {c : Config} {o : RunOptions} (hl : c.layout o.layout = .ok l)
    (ho : o.raw = true) (hr : readInputs w l paths = .ok agg) :
    (meanReport w c o paths).map RunReport.text = agg.render (l.spec []) .raw := by
  rw [meanReport_eq hl hr, ho, modeOf, if_pos rfl]
  cases agg.render (l.spec []) .raw <;> rfl

/-- Equal exact totals are printed in the same words. -/
theorem runMean_raw_congr {s : Session δ} {o : RunOptions} {paths' : List Text} (now : Int64)
    (hl : s.config.layout o.layout = .ok l) (hraw : o.raw = true) (hstddev : o.stddev = false)
    (hr : readInputs s.world l paths = .ok agg) (hr' : readInputs s.world l paths' = .ok agg')
    (hk : agg.kind = .integer) (harity : agg.arity = agg'.arity)
    (ht : agg.integerTotals? = agg'.integerTotals?) :
    (s.runMean now o paths).out = (s.runMean now o paths').out := by
  rw [runMean_out s now hstddev, runMean_out s now hstddev, meanReport_raw hl hraw hr,
    meanReport_raw hl hraw hr', Aggregate.render_raw_congr hk harity ht]

/-- The totals of a sound layout are printed. -/
theorem exists_meanReport_raw {c : Config} {o : RunOptions} (hl : c.layout o.layout = .ok l)
    (ho : o.raw = true) (hv : l.validate = .ok ()) (hr : readInputs w l paths = .ok agg)
    (hs : agg.Shaped) (harity : agg.arity = l.arity.toNat) :
    ∃ text, (meanReport w c o paths).map RunReport.text = .ok text := by
  obtain ⟨hpos, hspec⟩ := Layout.validate_ok hv
  have hcolumns : (agg.arity : Int) = l.arity := by omega
  rw [meanReport_raw hl ho hr]
  exact Aggregate.exists_render_raw hs (hcolumns ▸ hspec)

/-- **Several files behave as their concatenation**, as far as each of them can
be read on its own. Files are empty or end with a newline, and all records of
their concatenation can be read into one aggregate. Then reading every file
and merging succeeds if and only if no file of whole numbers carries a total of
its own out of the 64-bit range; other numbers have no such totals. Rows,
extrema, counts and exact totals are then those of the concatenation, and the
totals of whole numbers are reported in the same words. -/
theorem files_as_concatenation (hrecords : l.records = 0)
    (hfiles : List.Forall₂ (fun path f => w.read path = .ok f) paths files)
    (hclosed : ∀ f ∈ files, f.Closed)
    (hread : (l.newAggregate.readFrom files.flatten 0).error = none) :
    ((∃ agg, readInputs w l paths = .ok agg) ↔ ∀ f ∈ files, l.StaysInRange (l.entries f)) ∧
    (∀ agg, readInputs w l paths = .ok agg →
      agg.rows = (l.newAggregate.readFrom files.flatten 0).aggregate.rows ∧
      agg.range? = (l.newAggregate.readFrom files.flatten 0).aggregate.range? ∧
      agg.moments.map Moments.count =
        (l.newAggregate.readFrom files.flatten 0).aggregate.moments.map Moments.count ∧
      agg.integerTotals? =
        (l.newAggregate.readFrom files.flatten 0).aggregate.integerTotals?) ∧
    (∀ (s : Session δ) (now : Int64) (o : RunOptions) (whole : Text), s.world = w →
      s.config.layout o.layout = .ok l → l.kind = .integer → o.raw = true → o.stddev = false →
      w.read whole = .ok files.flatten → (∀ f ∈ files, l.StaysInRange (l.entries f)) →
      (s.runMean now o paths).out = (s.runMean now o [whole]).out ∧
      (l.validate = .ok () → ∃ report, (s.runMean now o paths).out = line report ∧
        (meanReport w s.config o paths).map RunReport.text = .ok report)) := by
  obtain ⟨hreads, hrange⟩ := (l.read_eq_none_iff files.flatten).mp hread
  obtain ⟨hreads', hentries⟩ := hreads.of_flatten hclosed
  obtain ⟨hwhole, harity, hkind⟩ := Layout.collected_read hread
  have haccepted := exists_readInputs_iff hrecords hfiles hreads' (hentries ▸ hrange)
  refine ⟨haccepted, ?_, ?_⟩
  · intro agg hr
    obtain ⟨h, harity', hkind'⟩ := collected_readInputs hrecords hfiles hr
    rw [← hentries] at h
    have ha := harity'.trans harity.symm
    exact ⟨h.rows_perm hwhole (.refl _), h.range_perm hwhole (.refl _) ha,
      h.counts_perm hwhole (.refl _) ha,
      h.integerTotals_perm hwhole (.refl _) ha (hkind'.trans hkind.symm)⟩
  · intro s now o whole hs hl hk hraw hstddev hfile hown
    obtain rfl := hs
    have hone : List.Forall₂ (fun path f => s.world.read path = .ok f) [whole] [files.flatten] :=
      .cons hfile .nil
    obtain ⟨agg, hr⟩ := haccepted.mpr hown
    obtain ⟨agg', hr'⟩ : ∃ agg', readInputs s.world l [whole] = .ok agg' := by
      rw [exists_readInputs_iff hrecords hone (by simpa using hreads) (by simpa using hrange)]
      simpa using hrange
    obtain ⟨h, ha, hk₁⟩ := collected_readInputs hrecords hfiles hr
    obtain ⟨h', ha', hk₂⟩ := collected_readInputs hrecords hone hr'
    have hsame : (files.map l.entries).flatten = ([files.flatten].map l.entries).flatten := by
      simp [hentries]
    rw [hsame] at h
    have htotals := h.integerTotals_perm h' (.refl _) (ha.trans ha'.symm) (hk₁.trans hk₂.symm)
    constructor
    · exact runMean_raw_congr now hl hraw hstddev hr hr' (hk₁.trans hk) (ha.trans ha'.symm) htotals
    · intro hv
      obtain ⟨text, htext⟩ := exists_meanReport_raw hl hraw hv hr h.reflects.shaped ha
      refine ⟨text, ?_, htext⟩
      rw [runMean_out s now hstddev, htext]

/-- One column of whole numbers under one label. -/
def countLayout : Layout where
  arity := 1
  numeric := [105, 110, 116, 101, 103, 101, 114]
  groups := [{ label := [110] }]

/-- A log of `-1`. -/
def minusOne : Text := [45, 49, 10]

/-- A blank line and a log of `3`. -/
def three : Text := [10, 51, 10]

/-- A log of the greatest whole number and of `1`. -/
def beyond : Text :=
  [57, 50, 50, 51, 51, 55, 50, 48, 51, 54, 56, 53, 52, 55, 55, 53, 56, 48, 55, 10, 49, 10]

/-- A folder with these logs, and with the first two put together. -/
def logFolder : World where
  files := [([[97]], minusOne), ([[98]], three), ([[99]], minusOne ++ three), ([[100]], beyond)]

def countSession : Session where
  world := logFolder
  config := { layouts := Layouts.empty.insert [110] (some countLayout) }
  archivePath := []

theorem files_as_concatenation_minusOne_three :
    (∃ agg, readInputs logFolder countLayout [[97], [98]] = .ok agg ∧ agg.rows = 2 ∧
      agg.integerTotals? = some [2]) ∧
    (countSession.runMean 0 ⟨[110], true, false, true⟩ [[97], [98]]).out =
      (countSession.runMean 0 ⟨[110], true, false, true⟩ [[99]]).out := by
  have hfiles : List.Forall₂ (fun path f => logFolder.read path = .ok f) [[97], [98]]
      [minusOne, three] := .cons rfl (.cons rfl .nil)
  have hown : ∀ f ∈ [minusOne, three], countLayout.StaysInRange (countLayout.entries f) := by
    simp only [List.mem_cons, List.not_mem_nil, or_false, forall_eq_or_imp, forall_eq]
    exact ⟨((countLayout.read_eq_none_iff minusOne).mp rfl).2,
      ((countLayout.read_eq_none_iff three).mp rfl).2⟩
  obtain ⟨haccepted, hfigures, hreport⟩ :=
    files_as_concatenation (l := countLayout) rfl hfiles (by decide) rfl
  obtain ⟨agg, hr⟩ := haccepted.mpr hown
  obtain ⟨hrows, -, -, htotals⟩ := hfigures agg hr
  exact ⟨⟨agg, hr, hrows, htotals⟩,
    (hreport countSession 0 ⟨[110], true, false, true⟩ [99] rfl rfl rfl rfl rfl rfl hown).1⟩

/-- Behind `-1` the greatest whole number and `1` stay in range. On their own
they do not, and their file is refused. -/
theorem minusOne_beyond_refused : countLayout.records = 0 ∧
    List.Forall₂ (fun path f => logFolder.read path = .ok f) [[97], [100]] [minusOne, beyond] ∧
    (∀ f ∈ [minusOne, beyond], f.Closed) ∧
    (countLayout.newAggregate.readFrom [minusOne, beyond].flatten 0).error = none ∧
    readInputs logFolder countLayout [[97], [100]] =
      .error (.within [100] (.format { FormatError.overflow 0 1 with line := 2 })) :=
  ⟨rfl, .cons rfl (.cons rfl .nil), by decide, rfl, rfl⟩

end Cli

end PerfReport
