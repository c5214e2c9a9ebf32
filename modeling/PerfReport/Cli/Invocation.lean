import PerfReport.Cli.Verb
import PerfReport.Config.Default

/-!
# Invocations

A command line that was understood: a command with its arguments, and the
options that all commands share.
-/

namespace PerfReport.Cli

/-- How a run is read and reported. -/
structure RunOptions where
  layout : Text
  raw : Bool := false
  stddev : Bool := false
  noArchive : Bool := false
  deriving DecidableEq

inductive Command
  /-- Averages over all records of the inputs. -/
  | mean (options : RunOptions) (inputs : List Text)
  /-- One line about a single run. -/
  | summary (options : RunOptions) (title input : Text)
  /-- Lists the archived runs. -/
  | history
  /-- Reports an archived run again. -/
  | show (id : Text) (raw : Bool)
  | delete (id : Text)
  /-- Writes the default configuration. -/
  | init (path : Option Text) (force : Bool)
  /-- Help on a command line that asks for nothing else. -/
  | help
  /-- Help on the command that the words name. -/
  | topic (words : List Text)
  /-- The completion script of a shell. -/
  | script (shell : Shell) (descriptions : Bool)
  /-- The words that may complete a command line. -/
  | complete (words : List Text)
  deriving DecidableEq

structure Invocation where
  /-- The configuration file, if it is not the default one. -/
  config : Option Text
  /-- The archive, if it is not the configured one. -/
  archive : Text
  command : Command
  deriving DecidableEq

/-- The command of a verb, if it has as many arguments as it needs. -/
def Command.ofWords (v : Verb) (o : Options) (words : List Text) : Except UsageError Command :=
  match v with
  | .mean =>
    if words.isEmpty then .error (.atLeast 1 0)
    else .ok (.mean ⟨o.layout.getD Config.meanName, o.raw, o.stddev, o.noArchive⟩ words)
  | .summary => match words with
    | [title, input] =>
      .ok (.summary ⟨o.layout.getD Config.summaryName, true, false, o.noArchive⟩ title input)
    | _ => .error (.exactly 2 words.length)
  | .history => match words with
    | [] => .ok .history
    | word :: _ => .error (.unknownCommand word v.path [])
  | .show => match words with
    | [id] => .ok (.show id o.raw)
    | _ => .error (.exactly 1 words.length)
  | .delete => match words with
    | [id] => .ok (.delete id)
    | _ => .error (.exactly 1 words.length)
  | .init => match words with
    | [] => .ok (.init none o.force)
    | [path] => .ok (.init (some path) o.force)
    | _ => .error (.atMost 1 words.length)
  | .help => .ok (.topic words)
  | .script shell => match words with
    | [] => .ok (.script shell !o.noDescriptions)
    | word :: _ => .error (.unknownCommand word v.path [])
  | .complete =>
    if words.isEmpty then .error (.atLeast 1 0) else .ok (.complete words)
  | .root | .config | .completion => .ok .help

/-- The flags and the other words of a command. A command line that is to be
completed is taken as it stands. -/
def Verb.readWords (v : Verb) (rest : List Text) : Except UsageError (Options × List Text) :=
  if v = .complete then .ok ({}, rest) else readFlags (.help :: v.flags) rest

/-- Understands a command line. Faults of flags are found before a wrong
number of arguments. -/
def Invocation.parse (args : List Text) : Except UsageError Invocation := do
  let (v, rest) ← Verb.find args
  let (o, words) ← v.readWords rest
  let command ← if o.help then pure .help else Command.ofWords v o words
  return ⟨o.config, o.archive, command⟩

end PerfReport.Cli
