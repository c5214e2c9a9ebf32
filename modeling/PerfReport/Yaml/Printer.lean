import PerfReport.Text.Base64
import PerfReport.Yaml.Form
import PerfReport.Yaml.Node

/-!
# Writing documents

Mappings and sequences are written as indented blocks, empty ones as a pair of
brackets. What a pair holds starts in the next column that is a multiple of
four; what an item holds starts behind its dash.
-/

namespace PerfReport.Yaml

namespace Node

def step : Nat := 4

/-- The indentation of what a pair at `indent` holds. -/
def inner (indent : Nat) : Nat := step * ((indent + step) / step)

/-- The indentation of what an item at `indent` holds. -/
def itemInner (indent : Nat) : Nat := indent + 2

/-! ## Scalars -/

/-- The characters of a text. -/
def charsOf (t : Text) : List Char :=
  t.glyphs.filterMap fun
    | .char c => some c
    | .stray _ => none

/-- A scalar as it is written, before a form is chosen for it: bytes that spell
no text are written as base64 digits behind a tag. -/
structure Content where
  tag : List Char := []
  text : Text
  style : Style

def Content.of (t : Text) (style : Style) : Content :=
  if t.isWellFormed then { text := t, style := style }
  else { tag := "!!binary".toList, text := Base64.encodeLines t, style := .plain }

/-- The bytes of a key that fits its line. -/
def simpleKeyLength : Nat := 128

/-- A key that fits its line. -/
def isSimpleKey : Node → Bool
  | .scalar t style =>
    let c := Content.of t style
    c.tag.length + c.text.length ≤ simpleKeyLength && !Form.hasBreak (charsOf c.text)
  | .mapping pairs => pairs.isEmpty
  | .sequence items => items.isEmpty

/-- Written behind a key or a dash; the lines after the first are indented by
`indent`. -/
def writeScalar (indent : Nat) (style : Style) (t : Text) : List Char :=
  let c := Content.of t style
  let cs := charsOf c.text
  let written := match Form.choose c.style c.text cs with
    | .bare => cs
    | .single => Form.writeSingle indent cs
    | .double => Form.writeDouble cs
    | .block => Form.writeBlock step indent cs
  if c.tag.isEmpty then written else c.tag ++ ' ' :: written

/-- A line end unless there is one. -/
def endLine (cs : List Char) : List Char :=
  match cs.getLast? with
  | some c => if isBreak c then cs else cs ++ ['\n']
  | none => ['\n']

/-! ## Collections -/

mutual

/-- The lines of a collection, all indented by `indent`; other nodes have
none. -/
def lines (indent : Nat) : Node → List Char
  | .mapping pairs => pairLines indent pairs
  | .sequence items => itemLines indent items
  | .scalar _ _ => []

/-- A node on the line of its key or dash, which ends in column `column`.
What does not fit there starts a line of its own after a key; `indent` is its
indentation. -/
def rest (afterKey : Bool) (column indent : Nat) : Node → List Char
  | .scalar t style => ' ' :: endLine (writeScalar indent style t)
  | .mapping [] => " \x7b\x7d\n".toList
  | .sequence [] => " []\n".toList
  | n =>
    if afterKey then '\n' :: lines indent n
    else Form.spaces (indent - column) ++ (lines indent n).drop indent

def pairLines (indent : Nat) : List (Node × Node) → List Char
  | [] => []
  | (key, value) :: pairs =>
    let written :=
      if key.isSimpleKey then (rest false 0 (inner indent) key).dropLast.drop 1
      else '?' :: rest false (indent + 1) (inner indent) key ++ Form.spaces indent
    Form.spaces indent ++ written
      ++ ':' :: rest key.isSimpleKey (indent + 1) (inner indent) value
      ++ pairLines indent pairs

def itemLines (indent : Nat) : List Node → List Char
  | [] => []
  | item :: items =>
    Form.spaces indent ++ '-' :: rest false (indent + 1) (itemInner indent) item
      ++ itemLines indent items

end

/-- The document with this root. -/
def write (n : Node) : Text :=
  let cs := match n with
    | .scalar _ _ | .mapping [] | .sequence [] => (rest false 0 0 n).drop 1
    | _ => n.lines 0
  textOf cs

end Node

/-- How documents are written and read. -/
structure Codec where
  write : Node → Text
  /-- The first document of a text, `some none` if there is none in it. -/
  read? : Text → Option (Option Node)

/-- The codec that configurations are kept with. -/
def Codec.standard : Codec := ⟨Node.write, Node.ofText?⟩

end PerfReport.Yaml
