import PerfReport.Archive
import PerfReport.Cli.Report

/-!
# Running commands

What a command does to the world, what it prints, and how it fails. A report
is printed once it is complete; only then is the run archived.
-/

namespace PerfReport.Cli

structure Outcome (δ : Type := KeyedStore) [Database δ] where
  world : World δ
  out : Text := []
  failed : Option Error := none

/-- The surroundings of a command: the user's home, and the moment in
nanoseconds since the start of 1970. -/
structure Surroundings where
  home : Text
  now : Int64

/-- A command about to run. -/
structure Session (δ : Type := KeyedStore) [Database δ] where
  world : World δ
  config : Config
  archivePath : Text

variable {δ : Type} [Database δ]

namespace Outcome

/-- The answer of a step that may change the world, after `out` was printed. -/
def ofAnswer (r : Except Error Text × World δ) : Outcome δ :=
  match r.1 with
  | .ok out => ⟨r.2, out, none⟩
  | .error e => ⟨r.2, [], some e⟩

end Outcome

namespace Session

/-- Does something with the archive and keeps what became of it. -/
def withArchive {α : Type} (s : Session δ)
    (act : Archive δ → Except Error α × Archive δ) : Except Error α × World δ :=
  if s.archivePath.isEmpty then (.error .noArchive, s.world)
  else match s.world.openArchive s.archivePath with
    | .error e => (.error e, s.world)
    | .ok o =>
      let (r, a) := act { store := o.store, cached := s.config.archive.cache }
      (r, o.world.setArchive o.place a.close.store)

/-- Saves a run unless no archive is wanted, after `out` was printed. -/
def archiveRun (s : Session δ) (skip : Bool) (snapshot : Snapshot) (out : Text) : Outcome δ :=
  if s.archivePath.isEmpty || skip then ⟨s.world, out, none⟩
  else
    let (r, w) := s.withArchive fun a =>
      let (r, a) := a.save snapshot
      (r.mapError (.within "failed to archive run"), a)
    match r with
    | .ok _ => ⟨w, out, none⟩
    | .error e => ⟨w, out, some e⟩

def runMean (s : Session δ) (now : Int64) (o : RunOptions) (inputs : List Text) : Outcome δ :=
  match meanReport s.world s.config o inputs with
  | .error e => ⟨s.world, [], some e⟩
  | .ok r =>
    let snapshot : Snapshot := ⟨0, now, o.layout, [], inputs, r.aggregate⟩
    if o.stddev then
      match deviationText r with
      | .error e => ⟨s.world, line r.text, some e⟩
      | .ok deviations =>
        s.archiveRun o.noArchive snapshot (line r.text ++ line deviations)
    else s.archiveRun o.noArchive snapshot (line r.text)

def runSummary (s : Session δ) (now : Int64) (o : RunOptions) (title input : Text) : Outcome δ :=
  match summaryReport s.world s.config o title input with
  | .error e => ⟨s.world, [], some e⟩
  | .ok r =>
    s.archiveRun o.noArchive ⟨0, now, o.layout, title, [input], r.aggregate⟩ (line r.text)

def runHistory (s : Session δ) : Outcome δ :=
  .ofAnswer <| s.withArchive fun a =>
    let (r, a) := a.list .latest
    (r.map historyTable, a)

/-- A run id is a plain number; a word that is none is refused before the
archive is opened. -/
def withRun (s : Session δ) (word : Text)
    (act : UInt64 → Archive δ → Except Error Text × Archive δ) : Outcome δ :=
  match UInt64.ofText? word with
  | none => ⟨s.world, [], some (.badRunId word)⟩
  | some id => .ofAnswer (s.withArchive (act id))

def runShow (s : Session δ) (word : Text) (raw : Bool) : Outcome δ :=
  s.withRun word fun id a =>
    match a.get .latest id with
    | (.error e, a) => (.error (.within (runName id) e), a)
    | (.ok snapshot, a) => ((showReport s.config id raw snapshot).map line, a)

def runDelete (s : Session δ) (word : Text) : Outcome δ :=
  s.withRun word fun id a =>
    match a.delete id with
    | (.error e, a) => (.error (.within (runName id) e), a)
    | (.ok (), a) => (.ok [], a)

end Session

/-- Writes the default configuration, over an old file only by force. -/
def runInit (w : World δ) (path : Text) (force : Bool) : Outcome δ :=
  if !force && w.exists? path then ⟨w, [], some (.alreadyExists path)⟩
  else
    let (r, w) := Config.standard.save w path
    .ofAnswer (r.map fun _ => line ("wrote " ++ path), w)

/-- Loads the configuration for a command that needs it. -/
def Invocation.session (i : Invocation) (path : Text) (w : World δ) : Except Error (Session δ) := do
  let c ← Config.loadOrStandard w path
  return ⟨w, c, if i.archive.isEmpty then c.archive.path else i.archive⟩

/-- Runs a command. The texts of help and completion are no reports and are
left out. -/
def Invocation.run (i : Invocation) (here : Surroundings) (w : World δ) : Outcome δ :=
  let path := i.config.getD (Config.defaultPath here.home)
  let inSession (act : Session δ → Outcome δ) : Outcome δ :=
    match i.session path w with
    | .ok s => act s
    | .error e => ⟨w, [], some e⟩
  match i.command with
  | .mean o inputs => inSession fun s => s.runMean here.now o inputs
  | .summary o title input => inSession fun s => s.runSummary here.now o title input
  | .history => inSession Session.runHistory
  | .show id raw => inSession fun s => s.runShow id raw
  | .delete id => inSession fun s => s.runDelete id
  | .init target force => runInit w (target.getD path) force
  | .help => ⟨w, [], none⟩
  | .topic _ | .script _ _ | .complete _ => inSession fun s => ⟨s.world, [], none⟩

/-- Runs a command line. -/
def run (here : Surroundings) (w : World δ) (args : List Text) : Outcome δ :=
  match Invocation.parse args with
  | .ok i => i.run here w
  | .error e => ⟨w, [], some (.usage e)⟩

end PerfReport.Cli
