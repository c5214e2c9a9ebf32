import PerfReport.Cli.Run
import PerfReport.Proofs.Storage.Database
import PerfReport.Proofs.World

/-!
# How a run ends

Two commands make a run: a mean over several inputs and a summary of one. Both
compute a report, print it, and then archive what they read. `Ended` says once
how such a command can end, what it has printed and what has become of the
world by then.

* `World.Archived`: what an archived run leaves in the world;
* `RunCommand`: the two commands, and what they have in common;
* `Session.start_ended`: every run ends in one of these ways;
* `Session.start_stored`: one that succeeds is in the archive.
-/

namespace PerfReport

/-! ## A run more in a database -/

namespace Database

variable {δ : Type} [Database δ]

/-- The database after a run was saved. -/
def withRun (db : δ) (run : Snapshot) : δ :=
  set (nextId db).2 (Key.ofRun (nextId db).1) { run with id := (nextId db).1 }.encode

theorem save_eq (a : Archive δ) (run : Snapshot) :
    (a.save run).1 = .ok (nextId a.store).1 ∧ (a.save run).2.close.store = withRun a.store run := by
  refine ⟨rfl, ?_⟩
  show (Archive.remember _ _ _).store = _
  unfold Archive.remember
  split <;> rfl

/-- One id is drawn, and one run is stored under it. -/
theorem asTable_withRun [LawfulDatabase δ] (db : δ) (run : Snapshot) :
    asTable (withRun db run) =
      (asTable db).draw.put (lastId db + 1) { run with id := lastId db + 1 }.encode := by
  rw [withRun, asTable_set_ofRun, asTable_nextId]
  rfl

end Database

namespace World

variable {δ : Type} [Database δ]

/-- The world after a run was archived under a path: it is in the store of the
folder that the path leads to, and nothing else has changed. -/
structure Archived (w : World δ) (path : Text) (p : Place) (run : Snapshot) (w' : World δ) :
    Prop where
  store : w'.storeAt p = Database.withRun (w.storeAt p) run
  others : ∀ q, q ≠ p → w'.storeAt q = w.storeAt q
  files : w'.files = w.files
  opened : w'.openArchive path = .ok ⟨w', some p, w'.storeAt p⟩

theorem openArchive_archived {w : World δ} {path : Text} (hpath : path ≠ []) {o : OpenArchive δ}
    (h : w.openArchive path = .ok o) (run : Snapshot) :
    ∃ p, Archived w path p run (o.world.setArchive o.place (Database.withRun o.store run)) := by
  obtain ⟨p, hplace, hstore, hfiles, hkept⟩ := openArchive_setArchive hpath h
  rw [hplace, hstore]
  obtain ⟨hopened, hstores⟩ := hkept (Database.withRun (w.storeAt p) run)
  have hp := (hstores p).trans (if_pos rfl)
  refine ⟨p, hp, ?_, hfiles, by rw [hp, hopened]⟩
  intro q hq
  rw [hstores, if_neg hq]

theorem openArchive_error {w : World δ} {path : Text} (hpath : path ≠ []) {e : Error}
    (h : w.openArchive path = .error e) : e = .archiveUnusable := by
  have hempty : path.isEmpty = false := by simpa using hpath
  rw [openArchive, hempty, if_neg Bool.false_ne_true] at h
  split at h
  · split at h <;> cases h
    rfl
  · split at h <;> cases h
    rfl
  · cases h
    rfl

end World

namespace Cli

variable {δ : Type} [Database δ]

/-! ## The commands -/

/-- The commands that make a run. -/
inductive RunCommand
  | mean (options : RunOptions) (inputs : List Text)
  | summary (options : RunOptions) (title input : Text)

namespace RunCommand

def command : RunCommand → Command
  | .mean o inputs => .mean o inputs
  | .summary o title input => .summary o title input

def options : RunCommand → RunOptions
  | .mean o _ => o
  | .summary o _ _ => o

def title : RunCommand → Text
  | .mean _ _ => []
  | .summary _ title _ => title

def sources : RunCommand → List Text
  | .mean _ inputs => inputs
  | .summary _ _ input => [input]

/-- Which values are reported. -/
def mode : RunCommand → Mode
  | .mean o _ => modeOf o.raw
  | .summary _ _ _ => .raw

/-- The deviations are printed too. -/
def withDeviations : RunCommand → Bool
  | .mean o _ => o.stddev
  | .summary _ _ _ => false

def report (w : World δ) (c : Config) : RunCommand → Except Error RunReport
  | .mean o inputs => meanReport w c o inputs
  | .summary o title input => summaryReport w c o title input

/-- What is printed behind the report. -/
def appendix (r : RunCommand) (report : RunReport) : Except Error Text :=
  if r.withDeviations then (deviationText report).map line else .ok []

def snapshot (r : RunCommand) (now : Int64) (report : RunReport) : Snapshot :=
  ⟨0, now, r.options.layout, r.title, r.sources, report.aggregate⟩

end RunCommand

namespace Session

def start (s : Session δ) (now : Int64) : RunCommand → Outcome δ
  | .mean o inputs => s.runMean now o inputs
  | .summary o title input => s.runSummary now o title input

end Session

namespace Invocation

def configPath (i : Invocation) (here : Surroundings) : Text :=
  i.config.getD (Config.defaultPath here.home)

variable {i : Invocation} {here : Surroundings} {w : World δ} {r : RunCommand}

/-- The world of a session is the one that it was started in. -/
theorem world_of_session {path : Text} {s : Session δ} (h : i.session path w = .ok s) :
    s.world = w := by
  obtain ⟨c, -, h⟩ := bind_eq_ok_iff.mp h
  cases h
  rfl

theorem run_of_session (hi : i.command = r.command) {s : Session δ}
    (hs : i.session (i.configPath here) w = .ok s) : i.run here w = s.start here.now r := by
  unfold configPath at hs
  cases r with
  | mean o inputs =>
    rw [run, hi]
    simp only [RunCommand.command, hs]
    rfl
  | summary o title input =>
    rw [run, hi]
    simp only [RunCommand.command, hs]
    rfl

theorem run_of_no_session (hi : i.command = r.command) {e : Error}
    (hs : i.session (i.configPath here) w = .error e) : i.run here w = ⟨w, [], some e⟩ := by
  unfold configPath at hs
  cases r with
  | mean o inputs =>
    rw [run, hi]
    simp only [RunCommand.command, hs]
  | summary o title input =>
    rw [run, hi]
    simp only [RunCommand.command, hs]

end Invocation

/-! ## The ends -/

/-- How a run can end. -/
inductive Ended (s : Session δ) (now : Int64) (r : RunCommand) : Outcome δ → Prop
  | unreported (e : Error) : r.report s.world s.config = .error e →
      Ended s now r ⟨s.world, [], some e⟩
  | unfinished (report : RunReport) (e : Error) : r.report s.world s.config = .ok report →
      r.appendix report = .error e → Ended s now r ⟨s.world, line report.text, some e⟩
  | unarchived (report : RunReport) (more : Text) : r.report s.world s.config = .ok report →
      r.appendix report = .ok more → (s.archivePath = [] ∨ r.options.noArchive = true) →
      Ended s now r ⟨s.world, line report.text ++ more, none⟩
  | unusable (report : RunReport) (more : Text) : r.report s.world s.config = .ok report →
      r.appendix report = .ok more → s.archivePath ≠ [] →
      Ended s now r ⟨s.world, line report.text ++ more, some .archiveUnusable⟩
  | archived (report : RunReport) (more : Text) (p : Place) (w' : World δ) :
      r.report s.world s.config = .ok report → r.appendix report = .ok more →
      s.world.Archived s.archivePath p (r.snapshot now report) w' →
      Ended s now r ⟨w', line report.text ++ more, none⟩

namespace Session

variable (s : Session δ) (now : Int64)

theorem start_eq (r : RunCommand) : s.start now r =
    match r.report s.world s.config with
    | .error e => ⟨s.world, [], some e⟩
    | .ok report =>
      match r.appendix report with
      | .error e => ⟨s.world, line report.text, some e⟩
      | .ok more =>
        s.archiveRun r.options.noArchive (r.snapshot now report) (line report.text ++ more) := by
  cases r with
  | mean o inputs =>
    rw [start, runMean]
    cases hr : meanReport s.world s.config o inputs with
    | error e => simp only [RunCommand.report, hr]
    | ok report =>
      simp only [RunCommand.report, hr, RunCommand.appendix, RunCommand.withDeviations]
      by_cases hd : o.stddev = true
      · simp only [hd, if_true]
        cases deviationText report <;> rfl
      · simp only [hd, Bool.false_eq_true, if_false, List.append_nil]
        rfl
  | summary o title input =>
    rw [start, runSummary]
    cases hr : summaryReport s.world s.config o title input with
    | error e => simp only [RunCommand.report, hr]
    | ok report =>
      simp only [RunCommand.report, hr, RunCommand.appendix, RunCommand.withDeviations,
        Bool.false_eq_true, if_false, List.append_nil]
      rfl

theorem archiveRun_eq {skip : Bool} (hpath : s.archivePath ≠ []) (hskip : skip = false)
    (run : Snapshot) (out : Text) : s.archiveRun skip run out =
      match s.world.openArchive s.archivePath with
      | .error e => ⟨s.world, out, some e⟩
      | .ok o => ⟨o.world.setArchive o.place (Database.withRun o.store run), out, none⟩ := by
  have hempty : s.archivePath.isEmpty = false := by simpa using hpath
  rw [archiveRun, hempty, hskip, Bool.or_false, if_neg Bool.false_ne_true, withArchive, hempty,
    if_neg Bool.false_ne_true]
  cases s.world.openArchive s.archivePath with
  | error e => rfl
  | ok o =>
    obtain ⟨hid, hstore⟩ :=
      Database.save_eq { store := o.store, cached := s.config.archive.cache } run
    simp only [hid, hstore]
    rfl

/-- **Runs.**  Every run ends in one of these ways. -/
theorem start_ended (r : RunCommand) : Ended s now r (s.start now r) := by
  rw [start_eq]
  cases hr : r.report s.world s.config with
  | error e => exact .unreported e hr
  | ok report =>
    simp only
    cases ha : r.appendix report with
    | error e => exact .unfinished report e hr ha
    | ok more =>
      simp only
      by_cases hskip : s.archivePath = [] ∨ r.options.noArchive = true
      · have hnone : (s.archivePath.isEmpty || r.options.noArchive) = true := by simpa using hskip
        rw [archiveRun, hnone, if_pos rfl]
        exact .unarchived report more hr ha hskip
      · obtain ⟨hpath, hkept⟩ := not_or.mp hskip
        have hkept : r.options.noArchive = false := by simpa using hkept
        rw [s.archiveRun_eq hpath hkept]
        cases ho : s.world.openArchive s.archivePath with
        | error e =>
          obtain rfl := World.openArchive_error hpath ho
          exact .unusable report more hr ha hpath
        | ok o =>
          obtain ⟨p, harchived⟩ := World.openArchive_archived hpath ho (r.snapshot now report)
          exact .archived report more p _ hr ha harchived

/-- A run that succeeds where it is to be archived is archived. -/
theorem start_stored {r : RunCommand} (h : (s.start now r).failed = none)
    (hpath : s.archivePath ≠ []) (hkept : r.options.noArchive = false) : ∃ report more p,
      r.report s.world s.config = .ok report ∧ r.appendix report = .ok more ∧
      (s.start now r).out = line report.text ++ more ∧
      s.world.Archived s.archivePath p (r.snapshot now report) (s.start now r).world := by
  generalize hend : s.start now r = outcome at h
  have hended : Ended s now r outcome := hend ▸ s.start_ended now r
  cases hended with
  | unreported => cases h
  | unfinished => cases h
  | unarchived _ _ _ _ hskip =>
    rcases hskip with hskip | hskip
    · exact absurd hskip hpath
    · rw [hkept] at hskip
      cases hskip
  | unusable => cases h
  | archived report more p w' hr ha harchived =>
    exact ⟨report, more, p, hr, ha, rfl, harchived⟩

end Session

end Cli

end PerfReport
