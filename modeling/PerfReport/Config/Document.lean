import PerfReport.Config.Default
import PerfReport.Text.Natural
import PerfReport.Yaml.Merge
import PerfReport.Yaml.Printer

/-!
# Configuration documents

Reading a configuration from a document and writing one. Unknown names are
skipped and missing ones leave the field empty; empty fields are written only
where they matter to a reader.
-/

namespace PerfReport

open Yaml (Codec Node Decoding Fault)

/-! ## Reading -/

/-- Takes the value of a name into a group. -/
def Group.set (g : Group) (name : Text) (n : Node) : Decoding Group := do
  if name = ("label" : Text) then return { g with label := ← n.toText g.label }
  else if name = ("left" : Text) then return { g with left := ← n.toInt g.left }
  else if name = ("right" : Text) then return { g with right := ← n.toInt g.right }
  else if name = ("left_label" : Text) then return { g with leftLabel := ← n.toText g.leftLabel }
  else if name = ("right_label" : Text) then
    return { g with rightLabel := ← n.toText g.rightLabel }
  else return g

def Group.ofNode (n : Node) : Decoding Group := n.fill Group.set {}

def Layout.set (l : Layout) (name : Text) (n : Node) : Decoding Layout := do
  if name = ("arity" : Text) then return { l with arity := ← n.toInt l.arity }
  else if name = ("numeric" : Text) then return { l with numeric := ← n.toText l.numeric }
  else if name = ("division" : Text) then return { l with division := ← n.toText l.division }
  else if name = ("records" : Text) then return { l with records := ← n.toInt l.records }
  else if name = ("summary" : Text) then return { l with summary := ← n.toBool l.summary }
  else if name = ("total" : Text) then return { l with total := ← n.toBool l.total }
  else if name = ("title_width" : Text) then return { l with titleWidth := ← n.toInt l.titleWidth }
  else if name = ("label_width" : Text) then return { l with labelWidth := ← n.toInt l.labelWidth }
  else if name = ("value_width" : Text) then return { l with valueWidth := ← n.toInt l.valueWidth }
  else if name = ("precision" : Text) then
    return { l with precision := ← n.toOptional (Node.toInt 0) }
  else if name = ("groups" : Text) then return { l with groups := ← n.toList Group.ofNode }
  else return l

def Layout.ofNode (n : Node) : Decoding Layout := n.fill Layout.set {}

/-- Every name is the name of a layout. -/
def Layouts.set (ls : Layouts) (name : Text) (n : Node) : Decoding Layouts := do
  return ls.insert name (← n.toOptional Layout.ofNode)

def ArchiveSettings.set (a : ArchiveSettings) (name : Text) (n : Node) :
    Decoding ArchiveSettings := do
  if name = ("path" : Text) then return { a with path := ← n.toText a.path }
  else if name = ("cache" : Text) then return { a with cache := ← n.toBool a.cache }
  else return a

def Config.set (c : Config) (name : Text) (n : Node) : Decoding Config := do
  if name = ("layouts" : Text) then return { c with layouts := ← n.fill Layouts.set c.layouts }
  else if name = ("archive" : Text) then
    return { c with archive := ← n.fill ArchiveSettings.set c.archive }
  else return c

def Config.ofNode (n : Node) : Except Fault Config := (n.fill Config.set {}).result

/-- An empty document is an empty configuration. -/
def Config.ofText (y : Codec) (t : Text) : Except Fault Config :=
  match y.read? t with
  | none => .error .unreadable
  | some none => .ok {}
  | some (some n) => ofNode n

/-- Reads a configuration and checks it. -/
def Config.parse (y : Codec) (t : Text) : Except Error Config :=
  match ofText y t with
  | .error .unreadable => .error .document
  | .error .mergeKey => .error .mergeKey
  | .ok c => match c.validate with
    | .ok () => .ok c
    | .error e => .error (.config e)

/-! ## Writing -/

namespace Document

def ofText (t : Text) : Node := .scalar t .quoted

def ofInt (n : Int) : Node := .scalar (Text.ofInt n) .plain

def ofFlag (b : Bool) : Node := .scalar (if b then "true" else "false") .plain

def null : Node := .scalar "null" .plain

def pair (name : String) (n : Node) : Node × Node := (ofText name, n)

/-- A pair that is written only on a condition. -/
def pairIf (shown : Bool) (name : String) (n : Node) : List (Node × Node) :=
  if shown then [pair name n] else []

end Document

open Document

def Group.toNode (g : Group) : Node := .mapping <|
  [pair "label" (ofText g.label), pair "left" (ofInt g.left), pair "right" (ofInt g.right)]
  ++ pairIf (!g.leftLabel.isEmpty) "left_label" (ofText g.leftLabel)
  ++ pairIf (!g.rightLabel.isEmpty) "right_label" (ofText g.rightLabel)

def Layout.toNode (l : Layout) : Node := .mapping <|
  [pair "arity" (ofInt l.arity), pair "numeric" (ofText l.numeric)]
  ++ pairIf (!l.division.isEmpty) "division" (ofText l.division)
  ++ pairIf (l.records != 0) "records" (ofInt l.records)
  ++ pairIf l.summary "summary" (ofFlag l.summary)
  ++ pairIf l.total "total" (ofFlag l.total)
  ++ pairIf (l.titleWidth != 0) "title_width" (ofInt l.titleWidth)
  ++ pairIf (l.labelWidth != 0) "label_width" (ofInt l.labelWidth)
  ++ pairIf (l.valueWidth != 0) "value_width" (ofInt l.valueWidth)
  ++ (match l.precision with
    | some p => [pair "precision" (ofInt p)]
    | none => [])
  ++ [pair "groups" (.sequence (l.groups.map Group.toNode))]

def layoutNode : Option Layout → Node
  | some l => l.toNode
  | none => null

/-- Layouts are written in the natural order of their names. -/
def Layouts.toNode (ls : Layouts) : Node :=
  .mapping <| (ls.entries.mergeSort fun a b => Natural.le a.1 b.1).map fun (name, l) =>
    (ofText name, layoutNode l)

def ArchiveSettings.toNode (a : ArchiveSettings) : Node := .mapping <|
  pairIf (!a.path.isEmpty) "path" (ofText a.path) ++ [pair "cache" (ofFlag a.cache)]

def Config.toNode (c : Config) : Node :=
  .mapping [pair "layouts" c.layouts.toNode, pair "archive" c.archive.toNode]

def Config.toText (c : Config) : Text := Codec.standard.write c.toNode

end PerfReport
