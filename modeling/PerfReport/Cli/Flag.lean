import PerfReport.Error

/-!
# Flags

The named options of a command line. A flag is written by its name or by a
letter; a switch needs no value, any other flag takes what follows the equals
sign or the next word. Letters can share one dash.
-/

namespace PerfReport.Cli

inductive Flag
  | config
  | archive
  | verbose
  | layout
  | raw
  | stddev
  | noArchive
  | force
  | noDescriptions
  | help
  deriving DecidableEq

namespace Flag

def name : Flag → Text
  | .config => "config"
  | .archive => "archive"
  | .verbose => "verbose"
  | .layout => "layout"
  | .raw => "raw"
  | .stddev => "stddev"
  | .noArchive => "no-archive"
  | .force => "force"
  | .noDescriptions => "no-descriptions"
  | .help => "help"

def letter? : Flag → Option UInt8
  | .config => some 99
  | .verbose => some 118
  | .help => some 104
  | _ => none

def isSwitch : Flag → Bool
  | .config | .archive | .layout => false
  | _ => true

/-- How a message names the flag. -/
def shown (f : Flag) : Text :=
  match f.letter? with
  | some l => 45 :: l :: (", --" ++ f.name)
  | none => "--" ++ f.name

def named? (flags : List Flag) (name : Text) : Option Flag := flags.find? (·.name == name)

def lettered? (flags : List Flag) (letter : UInt8) : Option Flag :=
  flags.find? (·.letter? == some letter)

end Flag

/-! ## Values -/

/-- The words for true and false. -/
def switch? (t : Text) : Option Bool :=
  let isOneOf (words : List String) : Bool := words.any fun w => t == Text.ofString w
  if isOneOf ["1", "t", "T", "TRUE", "true", "True"] then some true
  else if isOneOf ["0", "f", "F", "FALSE", "false", "False"] then some false
  else none

/-- What the flags of a command line say. -/
structure Options where
  config : Option Text := none
  archive : Text := []
  verbose : Bool := false
  layout : Option Text := none
  raw : Bool := false
  stddev : Bool := false
  noArchive : Bool := false
  force : Bool := false
  noDescriptions : Bool := false
  help : Bool := false
  deriving DecidableEq

namespace Options

/-- A switch whose value is neither true nor false is refused. -/
def setSwitch (f : Flag) (value : Text) (set : Bool → Options) : Except UsageError Options :=
  match switch? value with
  | some b => .ok (set b)
  | none => .error (.badSwitch value f.shown)

/-- The last value of a flag counts. -/
def set (o : Options) (f : Flag) (value : Text) : Except UsageError Options :=
  match f with
  | .config => .ok { o with config := some value }
  | .archive => .ok { o with archive := value }
  | .layout => .ok { o with layout := some value }
  | .verbose => setSwitch f value fun b => { o with verbose := b }
  | .raw => setSwitch f value fun b => { o with raw := b }
  | .stddev => setSwitch f value fun b => { o with stddev := b }
  | .noArchive => setSwitch f value fun b => { o with noArchive := b }
  | .force => setSwitch f value fun b => { o with force := b }
  | .noDescriptions => setSwitch f value fun b => { o with noDescriptions := b }
  | .help => setSwitch f value fun b => { o with help := b }

end Options

/-! ## Command lines -/

/-- A flag that waits for its value, and the error if none follows. -/
structure Pending where
  flag : Flag
  missing : UsageError

/-- How far a command line was read. -/
structure Progress where
  options : Options := {}
  /-- Words that belong to no flag, latest first. -/
  words : List Text := []
  pending : Option Pending := none

namespace Progress

def set (p : Progress) (f : Flag) (value : Text) : Except UsageError Progress := do
  return { p with options := ← p.options.set f value, pending := none }

def trueValue : Text := "true"

/-- Reads what follows two dashes. -/
def long (flags : List Flag) (p : Progress) (body : Text) : Except UsageError Progress :=
  let name := body.takeWhile (· != 61)
  match body with
  | [] | 45 :: _ | 61 :: _ => .error (.badSyntax ("--" ++ body))
  | _ => match Flag.named? flags name with
    | none => .error (.unknownFlag name)
    | some f =>
      if body.contains 61 then p.set f (body.drop (name.length + 1))
      else if f.isSwitch then p.set f trueValue
      else .ok { p with pending := some ⟨f, .missingValue name⟩ }

def testMark : Text := "test."

/-- Reads the letters after one dash. Words for a test runner are skipped. -/
def short (flags : List Flag) : Progress → (letters : Text) → Except UsageError Progress
  | p, [] => .ok p
  | p, l :: rest =>
    if testMark.isPrefixOf (l :: rest) then .ok p
    else match Flag.lettered? flags l with
      | none => .error (.unknownLetter l (l :: rest))
      | some f =>
        match rest with
        | 61 :: b :: value => p.set f (b :: value)
        | _ =>
          if f.isSwitch then do short flags (← p.set f trueValue) rest
          else if rest.isEmpty then
            .ok { p with pending := some ⟨f, .missingLetterValue l [l]⟩ }
          else p.set f rest

def isFlagWord : Text → Bool
  | 45 :: _ :: _ => true
  | _ => false

/-- Two dashes end the flags. -/
def dashes : Text := "--"

/-- Reads words in order: a flag that waits takes the next one whatever it
is. -/
def read (flags : List Flag) : Progress → List Text → Except UsageError Progress
  | p, [] =>
    match p.pending with
    | some w => .error w.missing
    | none => .ok p
  | p, word :: rest =>
    match p.pending with
    | some w => do read flags (← p.set w.flag word) rest
    | none =>
      if !isFlagWord word then read flags { p with words := word :: p.words } rest
      else if word = dashes then .ok { p with words := rest.reverse ++ p.words }
      else match word with
        | 45 :: 45 :: body => do read flags (← long flags p body) rest
        | _ => do read flags (← short flags p (word.drop 1)) rest

end Progress

/-- The options and the other words of a command line. -/
def readFlags (flags : List Flag) (args : List Text) :
    Except UsageError (Options × List Text) := do
  let p ← Progress.read flags {} args
  return (p.options, p.words.reverse)

end PerfReport.Cli
