import PerfReport.Kind

/-!
# Errors

What can go wrong, by cause, and the one place where each cause gets its
words.
-/

namespace PerfReport

/-- A malformed record. Line and column count from one; zero means unknown. -/
structure FormatError where
  line : Int := 0
  column : Int := 0
  token : Text := []
  reason : Text
  deriving DecidableEq

namespace FormatError

def message (e : FormatError) : Text :=
  "format error"
    ++ (if 0 < e.line then " on line " ++ Text.ofInt e.line else [])
    ++ (if 0 < e.column then
        " column " ++ Text.ofInt e.column ++ " (" ++ e.token.quoted ++ ")" else [])
    ++ ": " ++ e.reason

def fieldCount (expected : Int) (got : Nat) : FormatError :=
  { reason := "expected " ++ Text.ofInt expected ++ " fields, got " ++ Text.ofNat got }

/-- `index` counts from zero. -/
def badToken (index : Nat) (token : Text) (kind : NumericKind) : FormatError :=
  { column := index + 1, token := token, reason := "not a valid " ++ kind.name }

def overflow (index : Nat) (value : Int64) : FormatError :=
  { column := index + 1, token := Text.ofInt value.toInt, reason := "column total overflows int64" }

def mismatch (arity : Nat) (kind : NumericKind) (into : Nat) (intoKind : NumericKind) :
    FormatError :=
  { reason := "cannot merge " ++ Text.ofNat arity ++ " " ++ kind.name ++ " columns into "
      ++ Text.ofNat into ++ " " ++ intoKind.name ++ " columns" }

def noRecord : FormatError := { reason := "no record" }

end FormatError

/-- What an average over no rows would have been. -/
inductive Average
  | mean
  | deviation
  deriving DecidableEq

def Average.name : Average → Text
  | .mean => "mean"
  | .deviation => "standard deviation"

def divisionMessage (name : Text) : Text := "division error: " ++ name ++ " over zero rows"

/-- Why a report specification is refused. -/
inductive SpecError
  | noGroups
  | negativePrecision (got : Int)
  | noLabel (group : Nat)
  | leftOutOfRange (label : Text) (column arity : Int)
  | rightOutOfRange (label : Text) (column arity : Int)
  deriving DecidableEq

namespace SpecError

def outOfRange (side label : Text) (column arity : Int) : Text :=
  "group " ++ label.quoted ++ ": " ++ side ++ " column " ++ Text.ofInt column
    ++ " out of range [0, " ++ Text.ofInt arity ++ ")"

def message : SpecError → Text
  | noGroups => "label spec has no groups"
  | negativePrecision n => "precision must not be negative, got " ++ Text.ofInt n
  | noLabel i => "group " ++ Text.ofNat i ++ " has no label"
  | leftOutOfRange label c n => outOfRange "left" label c n
  | rightOutOfRange label c n => outOfRange "right" label c n

end SpecError

/-- Why a layout is refused. -/
inductive LayoutError
  | arity (got : Int)
  | numeric (name : Text)
  | division (name : Text)
  | negativeRecords
  | spec (e : SpecError)
  deriving DecidableEq

def LayoutError.message : LayoutError → Text
  | arity n => "arity must be positive, got " ++ Text.ofInt n
  | numeric name => "unknown numeric kind " ++ name.quoted
  | division name => "unknown division " ++ name.quoted
  | negativeRecords => "records must not be negative"
  | spec e => e.message

/-- Why a configuration is refused. -/
inductive ConfigError
  | noLayouts
  | emptyLayout (name : Text)
  | layout (name : Text) (e : LayoutError)
  deriving DecidableEq

def ConfigError.message : ConfigError → Text
  | noLayouts => "layouts configuration is required"
  | emptyLayout name => "layout " ++ name ++ " is empty"
  | layout name e => "layout " ++ name ++ ": " ++ e.message

/-- Why bytes are no snapshot. -/
inductive SnapshotError
  | version (got : UInt8)
  | truncated
  | trailing (count : Nat)
  deriving DecidableEq

def SnapshotError.message : SnapshotError → Text
  | version v => "unsupported snapshot version " ++ Text.ofNat v.toNat
  | truncated => "snapshot truncated"
  | trailing n => "snapshot has " ++ Text.ofNat n ++ " trailing bytes"

/-- The operations of a run store. -/
inductive StoreCall
  | get
  | put
  | delete
  | index
  | nextId
  deriving DecidableEq

def StoreCall.name : StoreCall → Text
  | .get => "get"
  | .put => "put"
  | .delete => "delete"
  | .index => "index"
  | .nextId => "next_id"

/-- Why a run store refuses. -/
inductive StoreError
  | notFound
  /-- A write after the store was closed. -/
  | closed
  /-- A failure put there on purpose. -/
  | injected (call : StoreCall)
  deriving DecidableEq

def StoreError.message : StoreError → Text
  | notFound => "run not found"
  | closed => "store is closed"
  | injected call => "injected " ++ call.name

/-- Why a file cannot be used. -/
inductive FileFault
  | missing
  | isDirectory
  | notDirectory
  | nameTooLong
  /-- The path holds a zero byte. -/
  | invalidPath
  deriving DecidableEq

def FileFault.message : FileFault → Text
  | missing => "no such file or directory"
  | isDirectory => "is a directory"
  | notDirectory => "not a directory"
  | nameTooLong => "file name too long"
  | invalidPath => "invalid argument"

/-- A failed file operation: what was tried on which path. -/
structure FileError where
  action : Text
  path : Text
  fault : FileFault
  deriving DecidableEq

def FileError.message (e : FileError) : Text :=
  e.action ++ " " ++ e.path ++ ": " ++ e.fault.message

/-- Why a command line is refused before anything runs. -/
inductive UsageError
  /-- With the commands that may have been meant. -/
  | unknownCommand (word path : Text) (near : List Text)
  | unknownFlag (name : Text)
  | unknownLetter (letter : UInt8) (group : Text)
  | missingValue (name : Text)
  | missingLetterValue (letter : UInt8) (group : Text)
  | badSyntax (word : Text)
  | badSwitch (value flag : Text)
  | exactly (expected got : Nat)
  | atLeast (expected got : Nat)
  | atMost (expected got : Nat)
  deriving DecidableEq

namespace UsageError

/-- The commands that may have been meant, each on its line. -/
def suggestions (near : List Text) : Text :=
  if near.isEmpty then []
  else
    let lines : Text := near.flatMap fun name => 9 :: (name ++ [10])
    "\n\nDid you mean this?\n" ++ lines

def message : UsageError → Text
  | unknownCommand word path near =>
    "unknown command " ++ word.quoted ++ " for " ++ path.quoted ++ suggestions near
  | unknownFlag name => "unknown flag: --" ++ name
  | unknownLetter letter group =>
    "unknown shorthand flag: " ++ Text.quotedByte letter ++ " in -" ++ group
  | missingValue name => "flag needs an argument: --" ++ name
  | missingLetterValue letter group =>
    "flag needs an argument: " ++ Text.quotedByte letter ++ " in -" ++ group
  | badSyntax word => "bad flag syntax: " ++ word
  | badSwitch value flag =>
    "invalid argument " ++ value.quoted ++ " for " ++ flag.quoted
      ++ " flag: strconv.ParseBool: parsing " ++ value.quoted ++ ": invalid syntax"
  | exactly n got =>
    "accepts " ++ Text.ofNat n ++ " arg(s), received " ++ Text.ofNat got
  | atLeast n got =>
    "requires at least " ++ Text.ofNat n ++ " arg(s), only received " ++ Text.ofNat got
  | atMost n got =>
    "accepts at most " ++ Text.ofNat n ++ " arg(s), received " ++ Text.ofNat got

end UsageError

/-- Everything that ends an operation early. -/
inductive Error
  | format (e : FormatError)
  | division (of : Average)
  | spec (e : SpecError)
  | unknownMode (name : Text)
  /-- A report names a column that is not there. -/
  | missingColumn
  /-- A line that does not fit the read buffer. -/
  | lineTooLong (line : Nat)
  | snapshot (e : SnapshotError)
  | store (e : StoreError)
  | kindName (name : Text)
  /-- The configuration is no document of the expected shape. -/
  | document
  /-- The configuration merges pairs into a mapping with a key that cannot be
  compared with their names. -/
  | mergeKey
  | config (e : ConfigError)
  | noLayout (name : Text)
  | file (e : FileError)
  /-- The archive directory cannot be used. -/
  | archiveUnusable
  | noArchive
  | badRunId (word : Text)
  | alreadyExists (path : Text)
  | usage (e : UsageError)
  /-- A cause with what was being done in front of it. -/
  | within (activity : Text) (cause : Error)
  deriving DecidableEq

namespace Error

def message : Error → Text
  | format e => e.message
  | division a => divisionMessage a.name
  | spec e => e.message
  | unknownMode name => "unknown render mode " ++ name
  | missingColumn => "no such column"
  | lineTooLong n =>
    "reading line " ++ Text.ofNat n ++ ": bufio.Scanner: token too long"
  | snapshot e => e.message
  | store e => e.message
  | kindName name => "unknown numeric kind " ++ name.quoted
  | document => "failed to parse config file"
  | mergeKey => "a collection is no key of a mapping that merges others"
  | config e => "invalid config: " ++ e.message
  | noLayout name => "no layout named " ++ name.quoted
  | file e => e.message
  | archiveUnusable => "failed to open archive"
  | noArchive => "no archive configured: pass --archive or set archive.path"
  | badRunId word => "invalid run id " ++ word.quoted
  | alreadyExists path => path ++ " already exists (use --force to overwrite)"
  | usage e => e.message
  | within activity cause => activity ++ ": " ++ message cause

/-- The cause behind all that was said in front of it. -/
def root : Error → Error
  | within _ cause => root cause
  | e => e

end Error

end PerfReport
