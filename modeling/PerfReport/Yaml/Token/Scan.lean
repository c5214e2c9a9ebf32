import PerfReport.Yaml.Source.Portion
import PerfReport.Yaml.Token.Block
import PerfReport.Yaml.Token.Comment
import PerfReport.Yaml.Token.Property

/-!
# Scanning

The tokens of a document, one after the other and no further than they are
asked for. Indentation opens and closes blocks. A scalar or a flow collection
may turn out to be the key of a mapping only when a colon follows it on the
same line; the tokens that say so are then put in front of it.
-/

namespace PerfReport.Yaml

/-- A place where a key of a flow level may have started. -/
structure PossibleKey where
  isOpen : Bool := false
  /-- It has to be a key, because it stands where keys of the block stand. -/
  isRequired : Bool := false
  /-- How many tokens are before it. -/
  number : Nat := 0
  mark : Mark := {}

/-- A key fits a line and this many characters. -/
def keyLength : Nat := 1024

/-- How deep blocks, and how deep flow collections may be nested. -/
def maxDepth : Nat := 10000

structure Scanner where
  source : Source
  /-- How many characters the document has. -/
  size : Nat
  /-- The tokens that were scanned and not taken, in order. -/
  queue : List Token := [.streamStart]
  /-- How many tokens were taken. -/
  taken : Nat := 0
  indent : Int := -1
  /-- The indentations around it, innermost first. -/
  indents : List Int := []
  /-- How many flow collections are open. -/
  level : Nat := 0
  /-- The possible key of this flow level. -/
  key : PossibleKey := {}
  /-- Those of the levels around it, innermost first. -/
  outerKeys : List PossibleKey := []
  /-- The tokens that may start a key, with the flow levels of the keys. -/
  starts : List (Nat × Nat) := []
  /-- A key may start here. -/
  keyAllowed : Bool := true

namespace Scanner

def mark (s : Scanner) : Mark := s.source.mark

def inFlow (s : Scanner) : Bool := 0 < s.level

/-- The number of the next token. -/
def nextNumber (s : Scanner) : Nat := s.taken + s.queue.length

def push (s : Scanner) (t : Token) : Scanner := { s with queue := s.queue ++ [t] }

/-- Puts a token in front of the one with this number; if that was taken
already, at the end. -/
def insertAt (s : Scanner) (number : Nat) (t : Token) : Scanner :=
  if number < s.taken then s.push t
  else
    let before := number - s.taken
    { s with queue := s.queue.take before ++ t :: s.queue.drop before }

def skipMany (s : Scanner) (n : Nat) : Scanner := { s with source := s.source.skipMany n }

def need (s : Scanner) (n : Nat) : Option Scanner :=
  (s.source.need n).map fun source => { s with source := source }

/-! ## Blocks -/

/-- Closes the blocks that are indented further. -/
def unroll (column : Int) : Scanner → Scanner := fun s =>
  if s.inFlow then s else close s.indents s
where
  close : List Int → Scanner → Scanner
    | outer :: rest, s =>
      if column < s.indent then close rest { s.push .blockEnd with indent := outer, indents := rest }
      else s
    | [], s => s

/-- Opens a block at this column unless one is open there; its token comes in
front of the one with this number. -/
def roll (s : Scanner) (column : Nat) (number : Nat) (t : Token) : Option Scanner :=
  if s.inFlow || column ≤ s.indent then some s
  else if maxDepth ≤ s.indents.length then none
  else some ({ s with indents := s.indent :: s.indents, indent := column }.insertAt number t)

/-- Opens a block at the column of the next token. -/
def rollHere (s : Scanner) (t : Token) : Option Scanner := s.roll s.mark.column s.nextNumber t

/-! ## Possible keys -/

/-- The token with this number starts no key. -/
def forgetStart (s : Scanner) (number : Nat) : Scanner :=
  { s with starts := s.starts.filter fun e => e.1 != number }

/-- Gives up the possible key; none if it was required. -/
def dropKey (s : Scanner) : Option Scanner :=
  if !s.key.isOpen then some s
  else if s.key.isRequired then none
  else some ({ s with key := { s.key with isOpen := false } }.forgetStart s.key.number)

/-- Notes that a key may start here. -/
def saveKey (s : Scanner) : Option Scanner :=
  if !s.keyAllowed then some s
  else do
    let s ← s.dropKey
    let required := !s.inFlow && s.indent == s.mark.column
    let number := s.nextNumber
    return { s with
      key := ⟨true, required, number, s.mark⟩
      starts := (number, s.level) :: s.starts.filter fun e => e.1 != number }

/-- A key cannot be longer than a line, nor longer than keys may be. -/
def isStale (s : Scanner) (k : PossibleKey) : Bool :=
  k.mark.line < s.mark.line || k.mark.index + keyLength < s.mark.index

/-- The key of a flow level, counted from this one outwards. -/
def keyAbove (s : Scanner) : (outwards : Nat) → Option PossibleKey
  | 0 => some s.key
  | k + 1 => s.outerKeys[k]?

/-- The next token may still turn out to be a key; none if it had to be one and
is not. -/
def headMayBeKey (s : Scanner) : Option Bool :=
  match s.starts.lookup s.taken with
  | none => some false
  | some level => match s.keyAbove (s.level - level) with
    | none => some false
    | some k =>
      if !k.isOpen then some false
      else if !s.isStale k then some true
      else if k.isRequired then none
      else some false

/-! ## Between tokens -/

/-- One character may be passed over at the start of a line when a byte order
mark came next at the last fetch. -/
def pastMark (s : Scanner) : Option Scanner := do
  let s ← s.need 1
  if s.mark.column == 0 && s.source.reader.fetchedAtMark then s.skipMany 1 |>.need 1
  else return s

/-- Past blanks, comments and line ends; a new line may start a key. -/
def toNextToken : (fuel : Nat) → Scanner → Option Scanner
  | 0, _ => none
  | fuel + 1, s => do
    let s ← s.pastMark
    let blank := fun c => c == ' ' || (c == '\t' && (s.inFlow || !s.keyAllowed))
    let source ← s.source.skipWhile blank
    let source ← if source.rest.head? == some '#' then source.pastComments s.size else some source
    if source.rest.isEmpty || !atLineEnd source.rest then return { s with source := source }
    let source ← source.pastLine
    toNextToken fuel { s with source := source, keyAllowed := s.keyAllowed || !s.inFlow }

/-! ## Tokens -/

def openFlow (s : Scanner) (t : Token) : Option Scanner := do
  let s ← s.saveKey
  if maxDepth ≤ s.level then none
  return { s.push t with
    key := { number := s.nextNumber }
    outerKeys := s.key :: s.outerKeys
    level := s.level + 1
    keyAllowed := true }.skipMany 1

def closeFlow (s : Scanner) (t : Token) : Option Scanner := do
  let s ← s.dropKey
  let s := match s.outerKeys with
    | k :: ks => { s.forgetStart s.key.number with key := k, outerKeys := ks, level := s.level - 1 }
    | [] => s
  return { s.push t with keyAllowed := false }.skipMany 1

def flowEntry (s : Scanner) : Option Scanner := do
  let s ← s.dropKey
  return { s.push .flowEntry with keyAllowed := true }.skipMany 1

def blockEntry (s : Scanner) : Option Scanner := do
  if !s.inFlow && !s.keyAllowed then none
  let s ← s.rollHere .blockSequenceStart
  let s ← s.dropKey
  return { s.push .blockEntry with keyAllowed := true }.skipMany 1

def explicitKey (s : Scanner) : Option Scanner := do
  if !s.inFlow && !s.keyAllowed then none
  let s ← s.rollHere .blockMappingStart
  let s ← s.dropKey
  return { s.push .key with keyAllowed := !s.inFlow }.skipMany 1

/-- A colon with no key before it. -/
def bareValue (s : Scanner) : Option Scanner := do
  if !s.inFlow && !s.keyAllowed then none
  let s ← s.rollHere .blockMappingStart
  return { s.push .value with keyAllowed := !s.inFlow }.skipMany 1

/-- A colon after a possible key makes it one. -/
def valueMark (s : Scanner) : Option Scanner :=
  let k := s.key
  let closed : Scanner := { s with key := { k with isOpen := false } }
  if !k.isOpen then s.bareValue
  else if !s.isStale k then do
    let s ← (closed.insertAt k.number .key).roll k.mark.column k.number .blockMappingStart
    return { (s.forgetStart k.number).push .value with keyAllowed := false }.skipMany 1
  else if k.isRequired then none
  else closed.bareValue

def scalarToken (s : Scanner) (style : Style) (r : Scanned) : Scanner :=
  { s.push (.scalar (textOf r.text) style) with source := r.source, keyAllowed := r.lineEnded }

def quotedToken (s : Scanner) (isDouble : Bool) : Option Scanner := do
  let s ← s.saveKey
  return s.scalarToken .quoted (← quotedScalar isDouble s.source)

def plainToken (s : Scanner) : Option Scanner := do
  let s ← s.saveKey
  return s.scalarToken .plain (← plainScalar s.inFlow (s.indent + 1) s.source)

def blockToken (s : Scanner) (literal : Bool) : Option Scanner := do
  let s ← s.dropKey
  let r ← blockScalar s.size literal s.indent s.source.skip
  return { s.scalarToken .quoted r with keyAllowed := true }

def nameToken (s : Scanner) (f : Text → Token) : Option Scanner := do
  let s ← s.saveKey
  let (name, source) ← nodeName s.source
  return { s.push (f name) with source := source, keyAllowed := false }

def tagToken (s : Scanner) : Option Scanner := do
  let s ← s.saveKey
  let (t, source) ← readTag s.source
  return { s.push t with source := source, keyAllowed := false }

/-- Closes all blocks in front of a token that stands between documents. -/
def betweenDocuments (s : Scanner) : Option Scanner := do
  let s ← (s.unroll (-1)).dropKey
  return { s with keyAllowed := false }

def directiveToken (s : Scanner) : Option Scanner := do
  let s ← s.betweenDocuments
  let (t, source) ← directive s.source
  return { s.push t with source := source }

def marker (s : Scanner) (t : Token) : Option Scanner := do
  let s ← s.betweenDocuments
  return (s.push t).skipMany 3

/-- The end of the document is at the start of a line. -/
def endToken (s : Scanner) : Option Scanner := do
  let m := s.mark
  let m : Mark := if m.column == 0 then m else { m with column := 0, line := m.line + 1 }
  let s := { s with source := { s.source with reader := { s.source.reader with mark := m } } }
  return (← s.betweenDocuments).push .streamEnd

/-- A plain scalar does not start with an indicator. A dash always, and a
question mark or colon outside of flows, start one if no gap follows. -/
def startsPlain (inFlow : Bool) (c : Char) (rest : List Char) : Bool :=
  if c == '-' then !atGap rest
  else if c == '?' || c == ':' then !inFlow && !atGap rest
  else !(isBlank c || indicators.contains c)

/-- The token of a node or of a collection that starts with `c`. -/
def contentToken (s : Scanner) (c : Char) (rest : List Char) : Option Scanner :=
  if c == '[' then s.openFlow .flowSequenceStart
  else if c == '\x7b' then s.openFlow .flowMappingStart
  else if c == ']' then s.closeFlow .flowSequenceEnd
  else if c == '\x7d' then s.closeFlow .flowMappingEnd
  else if c == ',' then s.flowEntry
  else if c == '-' && atGap rest then s.blockEntry
  else if c == '?' && (s.inFlow || atGap rest) then s.explicitKey
  else if c == ':' && (s.inFlow || atGap rest) then s.valueMark
  else if c == '*' then s.nameToken .alias
  else if c == '&' then s.nameToken .anchor
  else if c == '!' then s.tagToken
  else if (c == '|' || c == '>') && !s.inFlow then s.blockToken (c == '|')
  else if c == '\'' then s.quotedToken false
  else if c == '"' then s.quotedToken true
  else if startsPlain s.inFlow c rest then s.plainToken
  else none

/-- Past a comment after the last token; after a dash it belongs to what
follows. -/
def pastLineComment (s : Scanner) : Option Scanner :=
  if s.queue.getLast? == some .blockEntry then some s
  else s.source.pastLineComment.map fun source => { s with source := source }

/-- Scans one more token, with those that come in front of it. -/
def advance (s : Scanner) : Option Scanner := do
  let s ← s.need 1
  let s ← s.toNextToken (s.size + 2)
  let s ← (s.unroll s.mark.column).need 4
  let first := s.mark.column == 0
  match s.source.rest with
  | [] => s.endToken
  | c :: rest =>
    if first && c == '%' then s.directiveToken
    else if first && isMarker '-' (c :: rest) then s.marker .documentStart
    else if first && isMarker '.' (c :: rest) then s.marker .documentEnd
    else (← s.contentToken c rest).pastLineComment

/-! ## Taking tokens -/

/-- How many tokens are scanned before the first of them is taken. -/
def lookahead : Nat := 3

/-- Scans until the next token is settled. -/
def settle : (fuel : Nat) → Scanner → Option Scanner
  | 0, _ => none
  | fuel + 1, s => do
    if s.queue.length < lookahead then settle fuel (← s.advance)
    else if ← s.headMayBeKey then settle fuel (← s.advance)
    else return s

/-- The next token. -/
def peek (s : Scanner) : Option (Token × Scanner) := do
  let s ← s.settle (s.size + 2 * lookahead)
  match s.queue with
  | t :: _ => return (t, s)
  | [] => none

/-- Takes the next token. -/
def take (s : Scanner) : Scanner :=
  { s with
    queue := s.queue.drop 1
    taken := s.taken + 1
    starts := s.starts.filter fun e => e.1 != s.taken }

/-- The scanner in front of a document. -/
def ofText (t : Text) : Scanner :=
  let source := Source.ofText t
  { source := source, size := source.rest.length }

end Scanner

end PerfReport.Yaml
