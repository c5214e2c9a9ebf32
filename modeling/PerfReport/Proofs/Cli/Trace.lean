import PerfReport.Proofs.Cli.Reported
import PerfReport.Proofs.Storage.Keyed

/-!
# What a failed run leaves behind

A run that fails on its data has not touched the archive, and it has printed
nothing, with one exception: of inputs without rows there are totals, which
are printed, and no deviations, for which the run fails. A run that succeeds
has stored one run if it was to store any.

* `Error.OnData`: the failures that are due to the data;
* `Session.start_failed`: what a run leaves that ends with such a failure;
* `failed_run_leaves_no_trace`: the same of commands as they are invoked, and
  what a run stores that succeeds.
-/

namespace PerfReport

/-- The data are at fault: a malformed record, an average over no rows, or a
file that is missing. -/
def Error.OnData (e : Error) : Prop :=
  match e.root with
  | .format _ => True
  | .division _ => True
  | .file f => f.fault = .missing
  | _ => False

namespace Cli

variable {δ : Type} [Database δ]

/-- Totals without rows were printed when their deviations were asked for. -/
structure PrintedTotals (s : Session δ) (r : RunCommand) (e : Error) (out : Text) : Prop where
  asked : ∃ o inputs, r = .mean o inputs ∧ o.raw = true ∧ o.stddev = true
  printed : ∃ report, r.report s.world s.config = .ok report ∧ report.aggregate.rows = 0 ∧
    out = line report.text
  failed : e = .division .deviation

theorem RunCommand.appendix_error {r : RunCommand} {report : RunReport} {e : Error}
    (h : r.appendix report = .error e) :
    deviationText report = .error e ∧ r.withDeviations = true := by
  rw [appendix] at h
  split at h
  · next hd =>
    cases ht : deviationText report with
    | error x =>
      rw [ht] at h
      cases h
      exact ⟨rfl, hd⟩
    | ok t =>
      rw [ht] at h
      cases h
  · cases h

theorem printedTotals_of_appendix_error {s : Session δ} {r : RunCommand} {report : RunReport}
    {e : Error} (hr : r.report s.world s.config = .ok report)
    (ha : r.appendix report = .error e) (he : e.OnData) :
    PrintedTotals s r e (line report.text) := by
  obtain ⟨hdeviation, hasked⟩ := RunCommand.appendix_error ha
  obtain ⟨hrows, rfl⟩ | rfl := deviationText_error hdeviation
  · obtain ⟨o, inputs, rfl, hraw⟩ := (RunCommand.report_ok hr).rows hrows
    exact ⟨⟨o, inputs, rfl, hraw, hasked⟩, ⟨report, hr, hrows, rfl⟩, rfl⟩
  · exact he.elim

namespace Session

variable {s : Session δ} {now : Int64} {r : RunCommand}

theorem start_failed {e : Error} (h : (s.start now r).failed = some e) (he : e.OnData) :
    (s.start now r).world = s.world ∧
      ((s.start now r).out = [] ∨ PrintedTotals s r e (s.start now r).out) := by
  generalize hend : s.start now r = outcome at h
  have hended : Ended s now r outcome := hend ▸ s.start_ended now r
  cases hended with
  | unreported e' hr => exact ⟨rfl, .inl rfl⟩
  | unfinished report e' hr ha =>
    cases h
    exact ⟨rfl, .inr (printedTotals_of_appendix_error hr ha he)⟩
  | unarchived => cases h
  | unusable =>
    cases h
    exact he.elim
  | archived => cases h

end Session

/-- **A run that fails on its data leaves no trace.**  Whatever the options,
the configuration and the inputs are: a run that ends with a malformed record,
a division by zero rows or a missing file leaves the world as it was, and it
has printed nothing, unless it was asked for the totals and the deviations of
inputs that hold no rows. A run that succeeds where it is to be archived draws
one id in the archive that its path leads to, stores itself there under that
id, and changes no other run, no other archive and no file. -/
theorem failed_run_leaves_no_trace [LawfulDatabase δ] (i : Invocation) (r : RunCommand)
    (hi : i.command = r.command) (here : Surroundings) (w : World δ) :
    (∀ e, (i.run here w).failed = some e → e.OnData →
      (i.run here w).world = w ∧
      ((i.run here w).out = [] ∨ ∃ s, i.session (i.configPath here) w = .ok s ∧
        PrintedTotals s r e (i.run here w).out)) ∧
    ∀ s, i.session (i.configPath here) w = .ok s → s.archivePath ≠ [] →
      r.options.noArchive = false → (i.run here w).failed = none →
      ∃ report p id, r.report w s.config = .ok report ∧
        (i.run here w).world.openArchive s.archivePath =
          .ok ⟨(i.run here w).world, some p, (i.run here w).world.storeAt p⟩ ∧
        id = (Database.asTable (w.storeAt p)).last + 1 ∧
        Database.asTable ((i.run here w).world.storeAt p) =
          (Database.asTable (w.storeAt p)).draw.put id
            { r.snapshot here.now report with id := id }.encode ∧
        (∀ q, q ≠ p → (i.run here w).world.storeAt q = w.storeAt q) ∧
        (i.run here w).world.files = w.files := by
  constructor
  · intro e hfailed he
    cases hs : i.session (i.configPath here) w with
    | error e' =>
      rw [Invocation.run_of_no_session hi hs]
      exact ⟨rfl, .inl rfl⟩
    | ok s =>
      rw [Invocation.run_of_session hi hs] at hfailed ⊢
      obtain ⟨hworld, hout⟩ := Session.start_failed hfailed he
      refine ⟨hworld.trans (Invocation.world_of_session hs), hout.imp_right ?_⟩
      exact fun hprinted => ⟨s, rfl, hprinted⟩
  · intro s hs hpath hkept hfailed
    rw [Invocation.run_of_session hi hs] at hfailed ⊢
    obtain ⟨report, more, p, hr, -, -, harchived⟩ :=
      s.start_stored here.now hfailed hpath hkept
    rw [Invocation.world_of_session hs] at hr harchived
    refine ⟨report, p, _, hr, harchived.opened, rfl, ?_, harchived.others, harchived.files⟩
    rw [harchived.store, Database.asTable_withRun]
    rfl

/-- A folder with one log that holds nothing. -/
def emptyLog : World where
  files := [([[97]], [])]

/-- The mean of the log in the standard layout, archived in the folder `z`. -/
def meanOfEmptyLog (raw stddev : Bool) : Invocation where
  config := none
  archive := [122]
  command := .mean ⟨Config.meanName, raw, stddev, false⟩ [[97]]

def afterEmptyLog (raw stddev : Bool) : Outcome :=
  (meanOfEmptyLog raw stddev).run ⟨[], 0⟩ emptyLog

/-- There are no averages of nothing, and nothing is printed. There are
totals, which are archived. -/
theorem emptyLog_leaves_no_trace :
    ((afterEmptyLog false true).failed = some (.division .mean) ∧
      (afterEmptyLog false true).world = emptyLog ∧ (afterEmptyLog false true).out = []) ∧
    (afterEmptyLog true false).failed = none ∧
      ∃ p, (Database.asTable ((afterEmptyLog true false).world.storeAt p)).last = 1 ∧
        (Database.asTable ((afterEmptyLog true false).world.storeAt p)).run? 1 ≠ none := by
  constructor
  · have hfailed : (afterEmptyLog false true).failed = some (.division .mean) := by
      decide +kernel
    obtain ⟨htrace, -⟩ := failed_run_leaves_no_trace (meanOfEmptyLog false true)
      (.mean ⟨Config.meanName, false, true, false⟩ [[97]]) rfl ⟨[], 0⟩ emptyLog
    obtain ⟨hworld, hout | ⟨s, -, hprinted⟩⟩ := htrace _ hfailed trivial
    · exact ⟨hfailed, hworld, hout⟩
    · cases hprinted.failed
  · have hfailed : (afterEmptyLog true false).failed = none := by decide +kernel
    obtain ⟨-, hstored⟩ := failed_run_leaves_no_trace (meanOfEmptyLog true false)
      (.mean ⟨Config.meanName, true, false, false⟩ [[97]]) rfl ⟨[], 0⟩ emptyLog
    obtain ⟨report, p, id, -, -, hid, htable, -⟩ :=
      hstored ⟨emptyLog, .standard, [122]⟩ rfl (by decide) rfl hfailed
    have hlast : (Database.asTable (emptyLog.storeAt p)).last = 0 := rfl
    refine ⟨hfailed, p, ?_⟩
    rw [afterEmptyLog, htable, hid, hlast]
    exact ⟨rfl, nofun⟩

/-- Of inputs without rows the totals are printed before the deviations are
found to be missing. -/
theorem totals_printed_before_failure :
    (afterEmptyLog true true).failed = some (.division .deviation) ∧
      (afterEmptyLog true true).out ≠ [] := by
  decide +kernel

end Cli

end PerfReport
