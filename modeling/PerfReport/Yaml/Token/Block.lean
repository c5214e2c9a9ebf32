import PerfReport.Yaml.Token

/-!
# Block scalars

Indented texts after `|` and `>`: line ends are kept or folded, and a hint
says what becomes of those at the end.
-/

namespace PerfReport.Yaml

inductive Chomping
  | strip
  | clip
  | keep
  deriving DecidableEq

/-- The characters after the indicator. -/
structure BlockHint where
  chomping : Chomping := .clip
  /-- How far the text is indented, if that is said. -/
  indent : Option Nat := none

namespace BlockHint

def withChomping? (h : BlockHint) : Char → Option BlockHint
  | '+' => some { h with chomping := .keep }
  | '-' => some { h with chomping := .strip }
  | _ => none

/-- None for a digit that says no indentation. -/
def withIndent? (h : BlockHint) (c : Char) : Option BlockHint :=
  if '1' ≤ c && c ≤ '9' then some { h with indent := some (c.toNat - 48) } else none

/-- Takes one more hint if the next character is one. -/
def readOne (f : BlockHint → Char → Option BlockHint) (h : BlockHint) (s : Source) :
    Option (BlockHint × Source) := do
  let s ← s.need 1
  match s.rest with
  | c :: _ => match f h c with
    | some h => return (h, s.skip)
    | none => return (h, s)
  | [] => return (h, s)

/-- The hints in either order. -/
def read (s : Source) : Option (BlockHint × Source) := do
  let (h, s₁) ← readOne withChomping? {} s
  let (h, s₂) ← readOne withIndent? h s₁
  if s₁.mark.index == s.mark.index && s₁.mark.index != s₂.mark.index then
    readOne withChomping? h s₂
  else return (h, s₂)

end BlockHint

/-- A text under way: the finished part, the line end after it and those that
follow, all latest first. -/
structure BlockText where
  text : List Char := []
  lineEnd : List Char := []
  breaks : List Char := []
  /-- The last line began with a blank. -/
  wasBlank : Bool := false

/-- What was found in front of a line: its source, the deepest indentation and
the line ends, latest first. -/
structure Indentation where
  source : Source
  deepest : Nat
  breaks : List Char

/-- Blanks of an indentation and empty lines; none for a tab in it. With no
indentation known, `deepest` blanks were seen so far. -/
def emptyLines (indent : Option Nat) :
    List Char → Reader → (deepest : Nat) → (breaks : List Char) → Option Indentation
  | [], r, deepest, breaks => some ⟨⟨[], r⟩, max deepest r.mark.column, breaks⟩
  | '\r' :: '\n' :: cs, r, deepest, breaks => do
    let deepest := max deepest r.mark.column
    let r ← r.need 2 ('\r' :: '\n' :: cs)
    emptyLines indent cs (← (r.pastBreak 2).need 1 cs) deepest ('\n' :: breaks)
  | c :: cs, r, deepest, breaks =>
    let inIndent := match indent with
      | some n => r.mark.column < n
      | none => true
    if c == ' ' && inIndent then do
      emptyLines indent cs (← (r.past c).need 1 cs) deepest breaks
    else if c == '\t' && inIndent then none
    else if isBreak c then do
      let deepest := max deepest r.mark.column
      let r ← r.need 2 (c :: cs)
      emptyLines indent cs (← (r.pastBreak 1).need 1 cs) deepest (breakChar c :: breaks)
    else some ⟨⟨c :: cs, r⟩, max deepest r.mark.column, breaks⟩

def indentation (indent : Option Nat) (s : Source) : Option Indentation := do
  let s ← s.need 1
  emptyLines indent s.rest s.reader 0 []

/-- One line of the text in front of the line end after it. -/
def BlockText.addLine (literal : Bool) (t : BlockText) (text : List Char) : BlockText :=
  let blank := match text with
    | c :: _ => isBlank c
    | [] => false
  let fold := !literal && !t.wasBlank && !blank && t.lineEnd == ['\n']
  let joined := if fold then (if t.breaks.isEmpty then [' '] else []) else t.lineEnd
  { text := text.reverse ++ (t.breaks ++ (joined ++ t.text)), wasBlank := blank }

def BlockText.finish (chomping : Chomping) (t : BlockText) : List Char :=
  match chomping with
  | .strip => t.text.reverse
  | .clip => (t.lineEnd ++ t.text).reverse
  | .keep => (t.breaks ++ (t.lineEnd ++ t.text)).reverse

/-- The lines at the indentation; at most `fuel` of them. -/
def blockLines (literal : Bool) (indent : Nat) (chomping : Chomping) :
    (fuel : Nat) → Source → BlockText → Option Scanned
  | 0, _, _ => none
  | fuel + 1, s, t => do
    if s.mark.column != indent || s.rest.isEmpty then
      return ⟨t.finish chomping, s, false⟩
    let (text, s) ← s.takeWhile (!isBreak ·)
    let t := t.addLine literal text
    let s ← s.need 2
    let t := { t with lineEnd := (s.rest.take 1).map breakChar }
    let i ← indentation (some indent) s.skipBreak
    blockLines literal indent chomping fuel i.source { t with breaks := i.breaks }

/-- The scalar after its indicator, in a block indented by `parent` and in a
document of `size` characters. -/
def blockScalar (size : Nat) (literal : Bool) (parent : Int) (s : Source) : Option Scanned := do
  let (hint, s) ← BlockHint.read s
  let s ← s.skipWhile isBlank
  let s ← if s.rest.head? == some '#' then s.skipWhile (!isBreak ·) else some s
  if !atLineEnd s.rest then none
  let s ← s.pastLine
  let known := hint.indent.map fun n => (max parent 0).toNat + n
  let i ← indentation known s
  let indent := known.getD (max i.deepest (max (parent + 1) 1).toNat)
  blockLines literal indent hint.chomping (size + 1) i.source { breaks := i.breaks }

end PerfReport.Yaml
