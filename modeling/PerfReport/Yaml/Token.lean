import PerfReport.Text
import PerfReport.Yaml.Source

/-!
# Tokens

The marks of a document: its indentation, its indicators and its scalars.
-/

namespace PerfReport.Yaml

/-- How a scalar is written: bare words may stand for other things than
texts, quoted ones are texts, and a tag says what a scalar stands for. -/
inductive Style
  | plain
  | quoted
  | tagged (tag : Text)
  deriving DecidableEq

inductive Token
  | streamStart
  | streamEnd
  /-- The version of the format. -/
  | version (major minor : Nat)
  /-- A short form for the start of tags. -/
  | tagHandle (handle start : Text)
  | documentStart
  | documentEnd
  | blockSequenceStart
  | blockMappingStart
  | blockEnd
  | flowSequenceStart
  | flowSequenceEnd
  | flowMappingStart
  | flowMappingEnd
  | blockEntry
  | flowEntry
  | key
  | value
  /-- Stands for the node with this name. -/
  | alias (name : Text)
  /-- Gives the next node a name. -/
  | anchor (name : Text)
  /-- The kind of the next node, behind the handle if there is one. -/
  | tag (handle suffix : Text)
  | scalar (text : Text) (style : Style)
  deriving DecidableEq

def textOf (cs : List Char) : Text := cs.flatMap String.utf8EncodeChar

/-- A scalar, what follows it, and whether a line ended after it. -/
structure Scanned where
  text : List Char
  source : Source
  lineEnded : Bool := false

end PerfReport.Yaml
