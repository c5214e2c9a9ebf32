import PerfReport.Cli.Flag
import PerfReport.Text.Lower

/-!
# Commands by name

The commands form a tree. A command line is searched for the name of a command
at each level; what stands behind a flag that takes a value is no name, and a
flag that the level does not know counts as one that does.
-/

namespace PerfReport.Cli

/-- The shells that commands can be completed in. -/
inductive Shell
  | bash
  | zsh
  | fish
  | powershell
  deriving DecidableEq

def Shell.name : Shell → Text
  | .bash => "bash"
  | .zsh => "zsh"
  | .fish => "fish"
  | .powershell => "powershell"

inductive Verb
  | root
  | mean
  | summary
  | history
  | show
  | delete
  | config
  | init
  | help
  | completion
  /-- Prints the completion script of a shell. -/
  | script (shell : Shell)
  /-- Completes a command line for such a script. -/
  | complete
  deriving DecidableEq

namespace Verb

def name : Verb → Text
  | .root => "perfstat"
  | .mean => "mean"
  | .summary => "summary"
  | .history => "history"
  | .show => "show"
  | .delete => "delete"
  | .config => "config"
  | .init => "init"
  | .help => "help"
  | .completion => "completion"
  | .script shell => shell.name
  | .complete => "__complete"

/-- Another name under which a command is found. -/
def alias? : Verb → Option Text
  | .complete => some "__completeNoDesc"
  | _ => none

/-- The commands below a command. -/
def children : Verb → List Verb
  | .root => [.mean, .summary, .history, .show, .delete, .config, .help, .completion, .complete]
  | .config => [.init]
  | .completion => [.script .bash, .script .zsh, .script .fish, .script .powershell]
  | _ => []

def child? (v : Verb) (word : Text) : Option Verb :=
  v.children.find? fun c => c.name == word || c.alias? == some word

/-- The names from the root to a command. -/
def path : Verb → Text
  | .root => root.name
  | .init => "perfstat config init"
  | .script shell => "perfstat completion " ++ shell.name
  | v => "perfstat " ++ v.name

/-- The flags that every command has. -/
def sharedFlags : List Flag := [.config, .archive, .verbose]

def flags : Verb → List Flag
  | .mean => [.layout, .raw, .stddev, .noArchive] ++ sharedFlags
  | .summary => [.layout, .noArchive] ++ sharedFlags
  | .show => .raw :: sharedFlags
  | .init => .force :: sharedFlags
  | .script _ => .noDescriptions :: sharedFlags
  | _ => sharedFlags

/-! ## Suggestions -/

/-- The next row of the table of distances: between the texts up to `a` and
the starts of the other text. -/
def distanceRow (a : UInt8) : Text → (above : List Nat) → (left : Nat) → List Nat
  | b :: t, diagonal :: up :: above, left =>
    let d := if a = b then diagonal else 1 + min (min up left) diagonal
    d :: distanceRow a t (up :: above) d
  | _, _, _ => []

/-- How many bytes have to be added, left out or exchanged. -/
def distance (s t : Text) : Nat :=
  let row := s.foldl (fun row a =>
    let first := row.headD 0 + 1
    first :: distanceRow a t row first) (List.range (t.length + 1))
  row.getLastD 0

/-- A word that may have been meant for a command. -/
def isNear (word name : Text) : Bool :=
  let word := word.inSmallLetters
  distance word name ≤ 2 || word.isPrefixOf name

/-- Commands that are never suggested. -/
def isSilent (v : Verb) : Bool := v == .help || v == .complete

/-- The commands that may have been meant by an unknown word. -/
def near (word : Text) : List Text :=
  (root.children.filter fun v => !v.isSilent && isNear word v.name).map name

/-! ## Search -/

/-- The word is a flag whose value is the next word. -/
def takesNext (flags : List Flag) (word : Text) : Bool :=
  if word.contains 61 then false
  else match word with
    | 45 :: 45 :: name =>
      match Flag.named? flags name with
      | some f => !f.isSwitch
      | none => true
    | [45, letter] =>
      match Flag.lettered? flags letter with
      | some f => !f.isSwitch
      | none => true
    | _ => false

def isName (word : Text) : Bool := !word.isEmpty && word.head? != some 45

/-- The words that are no flags and no values of flags. -/
def names (flags : List Flag) : (skip : Bool) → List Text → List Text
  | _, [] => []
  | true, _ :: rest => names flags false rest
  | false, word :: rest =>
    if word = Progress.dashes then []
    else if takesNext flags word then (if rest.length ≤ 1 then [] else names flags true rest)
    else if isName word then word :: names flags false rest
    else names flags false rest

/-- The command line without the first occurrence of a command's name. -/
def without (flags : List Flag) (word : Text) : (skip : Bool) → List Text → List Text
  | _, [] => []
  | true, w :: rest => w :: without flags word false rest
  | false, w :: rest =>
    if w = Progress.dashes then w :: rest
    else if takesNext flags w then w :: without flags word true rest
    else if w = word then rest
    else w :: without flags word false rest

/-- Goes down the tree by at most `depth` levels as long as a word names a
command. -/
def descend : (depth : Nat) → Verb → List Text → Verb × List Text
  | 0, v, args => (v, args)
  | depth + 1, v, args =>
    match (names v.flags false args).head? with
    | none => (v, args)
    | some word => match v.child? word with
      | some c => descend depth c (without v.flags word false args)
      | none => (v, args)

/-- The tree has two levels below its root. -/
def depth : Nat := 2

/-- The command of a command line and its arguments. -/
def find (args : List Text) : Except UsageError (Verb × List Text) :=
  match descend depth .root args with
  | (.root, rest) =>
    match names root.flags false rest with
    | word :: _ => .error (.unknownCommand word root.name (near word))
    | [] => .ok (.root, rest)
  | found => .ok found

end Verb

end PerfReport.Cli
