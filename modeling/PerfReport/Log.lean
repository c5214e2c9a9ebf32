import PerfReport.Text

/-!
# Logging

Levels of the diagnostic log, and the messages of the run store in it: what
the store considers informative is a detail here.
-/

namespace PerfReport

inductive Level
  | debug
  | info
  | warn
  | error
  | dpanic
  | panic
  | fatal
  deriving DecidableEq

namespace Level

def all : List Level := [.debug, .info, .warn, .error, .dpanic, .panic, .fatal]

def name : Level → Text
  | .debug => "debug"
  | .info => "info"
  | .warn => "warn"
  | .error => "error"
  | .dpanic => "dpanic"
  | .panic => "panic"
  | .fatal => "fatal"

/-- Severity, with zero for `info`. -/
def rank : Level → Int
  | .debug => -1
  | .info => 0
  | .warn => 1
  | .error => 2
  | .dpanic => 3
  | .panic => 4
  | .fatal => 5

end Level

namespace Log

/-- The levels shown on standard error. -/
def enabled (verbose : Bool) : List Level :=
  let least := if verbose then Level.debug else Level.info
  Level.all.filter fun l => least.rank ≤ l.rank

/-! ## Message templates -/

inductive Argument
  | text (t : Text)
  | number (n : Int)

namespace Argument

def plain : Argument → Text
  | .text t => t
  | .number n => Text.ofInt n

/-- A value with its type, where the template asked for something else. -/
def typed : Argument → Text
  | .text t => "string=" ++ t
  | .number n => "int=" ++ Text.ofInt n

/-- The value as the verb asks for it. -/
def filled (verb : UInt8) (a : Argument) : Text :=
  match verb, a with
  | 118, a => a.plain
  | 115, .text t => t
  | 100, .number n => Text.ofInt n
  | v, a => "%!" ++ [v] ++ "(" ++ a.typed ++ ")"

end Argument

/-- Fills the verbs of a template from the left. -/
def fill : Text → List Argument → Text
  | [], [] => []
  | [], args => "%!(EXTRA " ++ (", " : Text).intercalate (args.map Argument.typed) ++ ")"
  | 37 :: 37 :: t, args => 37 :: fill t args
  | [37], args => "%!(NOVERB)" ++ fill [] args
  | 37 :: v :: t, [] => "%!" ++ [v] ++ "(MISSING)" ++ fill t []
  | 37 :: v :: t, a :: args => a.filled v ++ fill t args
  | b :: t, args => b :: fill t args

/-- Values side by side; a blank parts two neighbours that are both numbers. -/
def join : List Argument → Text
  | [] => []
  | .number n :: .number m :: args => Text.ofInt n ++ 32 :: join (.number m :: args)
  | a :: args => a.plain ++ join args

/-- A template without arguments is the message itself, and arguments without
a template stand side by side. -/
def message (template : Text) (args : List Argument) : Text :=
  if args.isEmpty then template
  else if template.isEmpty then join args
  else fill template args

/-! ## Messages of the store -/

inductive StoreSeverity
  | error
  | warning
  | info
  | debug
  deriving DecidableEq

def StoreSeverity.level : StoreSeverity → Level
  | .error => .error
  | .warning => .warn
  | .info => .debug
  | .debug => .debug

structure Entry where
  level : Level
  name : Text
  message : Text

/-- The name under which the store logs. -/
def storeName : Text := "badger"

/-- The entry for a store message, if the least level shown admits it. -/
def storeEntry? (least : Int) (severity : StoreSeverity) (template : Text) (args : List Argument) :
    Option Entry :=
  let level := severity.level
  if least ≤ level.rank then some ⟨level, storeName, message template args⟩ else none

end Log

end PerfReport
