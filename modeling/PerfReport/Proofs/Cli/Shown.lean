import PerfReport.Proofs.Cli.Reported
import PerfReport.Proofs.Number.Numeral
import PerfReport.Proofs.Snapshot.RoundTrip
import PerfReport.Proofs.Storage.Keyed

/-!
# Archived runs shown again

A run is archived with all that its report was made of, so it can be shown as
long as it is archived. What it does not say is which values were reported:
those of a summary layout are shown as totals, those of any other layout as
averages unless totals are asked for. Where that is how the run was reported,
its report is repeated.

* `World.Keeps`: a run is in the archive of a path;
* `Reported.encodable`, `Reported.exists_shown`: a run that was reported can be
  read back, and shown;
* `Session.runShow_of_keeps`: what showing an archived run prints;
* `show_repeats_report`: a run, and what is shown of it.
-/

namespace PerfReport

variable {δ : Type} [Database δ]

/-! ## Sizes -/

theorem Layout.kind_fits (l : Layout) : 0 ≤ l.kind.code ∧ l.kind.code ≤ 255 := by
  unfold kind NumericKind.ofName?
  split
  · decide
  · split <;> decide

/-- A path that is too long leads nowhere. -/
theorem World.length_of_read {w : World δ} {path bytes : Text} (h : w.read path = .ok bytes) :
    path.length < Place.pathLimit := by
  by_contra hlong
  have hfault : Place.textFault? path ≠ none := by
    unfold Place.textFault?
    split
    · simp
    · split
      · simp
      · rw [if_pos (Nat.le_of_not_lt hlong)]
        simp
  cases hl : w.locate path with
  | ok p => exact hfault ((w.locate_eq_ok_iff path p).mp hl).1
  | error fault =>
    have hfind : w.find path = .error fault := by
      rw [find, hl]
      rfl
    rw [read, hfind] at h
    cases h

namespace World

/-- The archive of a path has a run under an id. -/
def Keeps (w : World δ) (path : Text) (id : UInt64) (run : Snapshot) : Prop :=
  ∃ o, w.openArchive path = .ok o ∧ Database.get o.store id = .ok run.encode

theorem Archived.keeps [LawfulDatabase δ] {w w' : World δ} {path : Text} {p : Place}
    {run : Snapshot} (h : w.Archived path p run w') : w'.Keeps path (Database.nextId (w.storeAt p)).1
      { run with id := (Database.nextId (w.storeAt p)).1 } := by
  refine ⟨_, h.opened, ?_⟩
  show Database.get (w'.storeAt p) _ = _
  rw [h.store, Database.withRun, Database.get, LawfulDatabase.find?_set, if_pos rfl]

end World

namespace Cli

/-! ## Runs that can be shown -/

/-- Names and counts that fit the four bytes that a snapshot has for each. -/
structure RunCommand.Recordable (r : RunCommand) (c : Config) : Prop where
  layout : r.options.layout.length < UInt32.size
  title : r.title.length < UInt32.size
  sources : r.sources.length < UInt32.size
  arity : ∀ l, c.layout r.options.layout = .ok l → l.arity < UInt32.size

/-- Totals are asked for as they were for the run. -/
def RunCommand.showRaw : RunCommand → Bool
  | .mean o _ => o.raw
  | .summary _ _ _ => false

/-- The layout is one that is shown as the run was reported. -/
def RunCommand.ShownAlike (l : Layout) : RunCommand → Prop
  | .mean o _ => o.raw = true ∨ l.summary = false
  | .summary _ _ _ => l.summary = true

theorem RunCommand.ShownAlike.mode {l : Layout} {r : RunCommand} (h : r.ShownAlike l) :
    modeOf (r.showRaw || l.summary) = r.mode := by
  cases r with
  | mean o inputs =>
    rcases h with hraw | hpairs
    · simp [showRaw, RunCommand.mode, hraw]
    · simp [showRaw, RunCommand.mode, hpairs]
  | summary o title input =>
    have hsummary : l.summary = true := h
    simp [showRaw, RunCommand.mode, hsummary, modeOf]

namespace Reported

variable {w : World δ} {c : Config} {r : RunCommand} {report : RunReport}

theorem encodable (h : Reported w c r report) (hr : r.Recordable c) (now : Int64) (id : UInt64) :
    { r.snapshot now report with id := id }.Encodable where
  layout := hr.layout
  title := hr.title
  sourceCount := hr.sources
  sources := by
    intro path hpath
    obtain ⟨bytes, hbytes⟩ := h.readable path hpath
    exact Nat.lt_trans (World.length_of_read hbytes) (by decide)
  arity := by
    have harity := hr.arity report.layout h.layout
    have hsize : 0 < UInt32.size := by decide
    show report.aggregate.arity < UInt32.size
    rw [h.obtained.static.1]
    omega
  kind := by
    show 0 ≤ report.aggregate.kind.code ∧ report.aggregate.kind.code ≤ 255
    rw [h.obtained.static.2]
    exact report.layout.kind_fits

theorem decode_encode (h : Reported w c r report) (hr : r.Recordable c) (now : Int64)
    (id : UInt64) : Snapshot.decode { r.snapshot now report with id := id }.encode =
      .ok { r.snapshot now report with id := id } :=
  Snapshot.decode_encode (h.encodable hr now id) h.obtained.reachable.shaped

theorem validate (h : Reported w c r report) :
    (report.layout.spec r.title).validate report.aggregate.arity = .ok () := by
  obtain ⟨_, hv, -⟩ := bind_eq_ok_iff.mp h.text
  exact mapError_eq_ok_iff.mp hv

/-- What was reported can be shown: there are rows wherever averages are. -/
theorem exists_shown (h : Reported w c r report) : ∃ text, report.aggregate.render
    (report.layout.spec r.title) (modeOf (r.showRaw || report.layout.summary)) = .ok text := by
  have hshaped := h.obtained.reachable.shaped
  by_cases htotals : (r.showRaw || report.layout.summary) = true
  · rw [modeOf, if_pos htotals]
    exact Aggregate.exists_render_raw hshaped h.validate
  · rw [modeOf, if_neg htotals]
    refine Aggregate.exists_render_averaged hshaped h.validate ?_
    intro hrows
    obtain ⟨o, inputs, rfl, hraw⟩ := h.rows hrows
    exact htotals (by simp [RunCommand.showRaw, hraw])

/-- The layout is found again by its name. -/
theorem showReport_eq (h : Reported w c r report) (now : Int64) (id : UInt64) (raw : Bool) :
    showReport c id raw { r.snapshot now report with id := id } =
      report.aggregate.render (report.layout.spec r.title)
        (modeOf (raw || report.layout.summary)) := by
  show ((c.layout r.options.layout).mapError _ >>= _) = _
  rw [h.layout]
  rfl

end Reported

/-! ## Showing -/

/-- A new archive has nothing in its cache. -/
theorem get_fresh {store : δ} (cached : Bool) {id : UInt64} {run : Snapshot}
    (hget : Database.get store id = .ok run.encode) (hrun : Snapshot.decode run.encode = .ok run) :
    (Archive.get .latest { store := store, cached := cached } id).1 = .ok run := by
  have hfetch : Archive.fetch { store := store, cached := cached } id = .ok run := by
    show ((Database.get store id).mapError _ >>= _) = _
    rw [hget]
    show (Snapshot.decode run.encode).mapError _ = _
    rw [hrun]
    rfl
  have hcache : Archive.cacheHit .latest { store := store, cached := cached } id = none := by
    unfold Archive.cacheHit
    split <;> rfl
  rw [Archive.get, if_neg (by simp), hcache]
  simp only [hfetch]

/-- What showing an archived run prints. -/
theorem Session.runShow_of_keeps {s : Session δ} {id : UInt64} {run : Snapshot} {raw : Bool}
    {text : Text} (hpath : s.archivePath ≠ []) (hkeeps : s.world.Keeps s.archivePath id run)
    (hrun : Snapshot.decode run.encode = .ok run)
    (htext : showReport s.config id raw run = .ok text) :
    (s.runShow (Text.ofNat id.toNat) raw).failed = none ∧
      (s.runShow (Text.ofNat id.toNat) raw).out = line text := by
  obtain ⟨o, ho, hget⟩ := hkeeps
  have hempty : s.archivePath.isEmpty = false := by simpa using hpath
  have hfound := get_fresh s.config.archive.cache hget hrun
  rw [runShow, withRun, UInt64.ofText?_ofNat]
  simp only [withArchive, hempty, Bool.false_eq_true, if_false, ho]
  generalize Archive.get .latest { store := o.store, cached := s.config.archive.cache } id = got
    at hfound
  obtain ⟨answer, a⟩ := got
  cases hfound
  simp only [htext, Outcome.ofAnswer]
  exact ⟨rfl, rfl⟩

theorem Invocation.run_show {j : Invocation} {there : Surroundings} {v : World δ} {word : Text}
    {raw : Bool} {s : Session δ} (hj : j.command = .show word raw)
    (hs : j.session (j.configPath there) v = .ok s) : j.run there v = s.runShow word raw := by
  unfold configPath at hs
  rw [run, hj]
  simp only [hs]

/-- **Showing an archived run repeats its report.**  Take a run that succeeded
and was archived. As long as it is in the archive, it can be shown under the
same configuration, and what is printed is what the run has read, in its layout
and under its title: in totals if they are asked for or the layout is a
summary, else in averages. So it is the report that the run printed, if totals
were asked for or averages were reported in a layout that is no summary, and if
the run was a summary in a summary layout. -/
theorem show_repeats_report [LawfulDatabase δ] (i : Invocation) (r : RunCommand)
    (hi : i.command = r.command) (here : Surroundings) (w : World δ) (s : Session δ)
    (hs : i.session (i.configPath here) w = .ok s) (hpath : s.archivePath ≠ [])
    (hkept : r.options.noArchive = false) (hr : r.Recordable s.config)
    (hrun : (i.run here w).failed = none) :
    ∃ report more p id, r.report w s.config = .ok report ∧
      (i.run here w).out = line report.text ++ more ∧
      (r.withDeviations = false → more = []) ∧
      id = (Database.nextId (w.storeAt p)).1 ∧
      w.Archived s.archivePath p (r.snapshot here.now report) (i.run here w).world ∧
      (i.run here w).world.Keeps s.archivePath id { r.snapshot here.now report with id := id } ∧
      ∀ v, v.Keeps s.archivePath id { r.snapshot here.now report with id := id } →
        ∀ (j : Invocation) (there : Surroundings),
          j.command = .show (Text.ofNat id.toNat) r.showRaw →
          j.session (j.configPath there) v = .ok ⟨v, s.config, s.archivePath⟩ →
          (j.run there v).failed = none ∧
          (∃ text, report.aggregate.render (report.layout.spec r.title)
              (modeOf (r.showRaw || report.layout.summary)) = .ok text ∧
            (j.run there v).out = line text) ∧
          (r.ShownAlike report.layout → (j.run there v).out = line report.text) := by
  rw [Invocation.run_of_session hi hs] at hrun ⊢
  obtain ⟨report, more, p, hreport, hmore, hout, harchived⟩ :=
    s.start_stored here.now hrun hpath hkept
  rw [Invocation.world_of_session hs] at hreport harchived
  have hreported := RunCommand.report_ok hreport
  refine ⟨report, more, p, _, hreport, hout, ?_, rfl, harchived, harchived.keeps, ?_⟩
  · intro hnone
    rw [RunCommand.appendix, hnone] at hmore
    cases hmore
    rfl
  · intro v hkeeps j there hj hsj
    obtain ⟨text, htext⟩ := hreported.exists_shown
    have hshown := Session.runShow_of_keeps (s := ⟨v, s.config, s.archivePath⟩) hpath hkeeps
      (hreported.decode_encode hr here.now _) ((hreported.showReport_eq here.now _ _).trans htext)
    rw [Invocation.run_show hj hsj]
    refine ⟨hshown.1, ⟨text, htext, hshown.2⟩, ?_⟩
    intro halike
    rw [halike.mode, hreported.text] at htext
    cases htext
    exact hshown.2

/-- A folder with a log of zeros for all counters, and with one of a single zero. -/
def zeroLogs : World where
  files := [([[97]], [48, 32, 48, 32, 48, 32, 48, 32, 48, 32, 48, 32, 48, 32, 48, 32, 48, 32, 48,
    32, 48, 32, 48, 32, 48, 32, 48, 10]), ([[98]], [48, 10])]

/-- A command of the standard configuration, with its archive in the folder `z`. -/
def archiving (command : Command) : Invocation where
  config := none
  archive := [122]
  command := command

def afterRun (r : RunCommand) : Outcome := (archiving r.command).run ⟨[], 0⟩ zeroLogs

/-- The first archived run, shown. -/
def shownAfter (r : RunCommand) : Outcome :=
  (archiving (.show [49] false)).run ⟨[], 0⟩ (afterRun r).world

def meanOfZeros : RunCommand := .mean ⟨Config.meanName, false, false, false⟩ [[97]]

theorem mean_shown_again : (afterRun meanOfZeros).failed = none ∧
    (shownAfter meanOfZeros).failed = none ∧
    (shownAfter meanOfZeros).out = (afterRun meanOfZeros).out := by
  have hrun : (afterRun meanOfZeros).failed = none := by decide +kernel
  have hrecordable : meanOfZeros.Recordable .standard := by
    refine ⟨by decide, by decide, by decide, ?_⟩
    rintro l ⟨⟩
    decide
  obtain ⟨report, more, p, id, hreport, hout, hmore, hid, -, hkeeps, hshow⟩ :=
    show_repeats_report (archiving meanOfZeros.command) meanOfZeros rfl ⟨[], 0⟩ zeroLogs
      ⟨zeroLogs, .standard, [122]⟩ rfl (by decide) rfl hrecordable hrun
  have hfirst : id = 1 := hid
  subst hfirst
  obtain ⟨hfailed, -, hrepeated⟩ := hshow _ hkeeps (archiving (.show [49] false)) ⟨[], 0⟩
    (by decide +kernel) rfl
  have hlayout : report.layout.summary = false := by
    rw [← Except.ok.inj (RunCommand.report_ok hreport).layout]
    rfl
  have hshown := hrepeated (.inr hlayout)
  refine ⟨hrun, hfailed, ?_⟩
  rw [afterRun, hout, hmore rfl, List.append_nil]
  exact hshown

/-- The summary of the log in a layout of pairs. -/
def pairsOfZeros : RunCommand := .summary ⟨Config.meanName, true, false, false⟩ [116] [97]

/-- One real number, in one line with its total. -/
def lineLayout : Layout where
  arity := 1
  summary := true
  total := true
  groups := [{ label := [110] }]

def lineSession : Session where
  world := zeroLogs
  config := { layouts := Layouts.empty.insert [108] (some lineLayout) }
  archivePath := [122]

/-- The mean of the log in a summary layout. -/
def lineOfZero : Outcome := lineSession.start 0 (.mean ⟨[108], false, false, false⟩ [[98]])

/-- The totals of a summary in a layout of pairs are shown as averages, and
the averages in a summary layout as totals. -/
theorem crosswise_shown_otherwise :
    ((afterRun pairsOfZeros).failed = none ∧ (shownAfter pairsOfZeros).failed = none ∧
      (shownAfter pairsOfZeros).out ≠ (afterRun pairsOfZeros).out) ∧
    lineSession.config.validate = .ok () ∧ lineOfZero.failed = none ∧
      ({ lineSession with world := lineOfZero.world }.runShow [49] false).failed = none ∧
      ({ lineSession with world := lineOfZero.world }.runShow [49] false).out ≠
        lineOfZero.out := by
  refine ⟨by decide +kernel, rfl, ?_⟩
  decide +kernel

end Cli

end PerfReport
