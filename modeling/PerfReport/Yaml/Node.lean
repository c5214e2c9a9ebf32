import PerfReport.Yaml.Token.Scan

/-!
# Nodes

A document as a tree of scalars, mappings and sequences. Only the first
document of a stream counts, and the stream is read no further than its end.
Where a node may be left out it is an empty plain scalar, which stands for
nothing.
-/

namespace PerfReport.Yaml

inductive Node
  | scalar (text : Text) (style : Style)
  | mapping (pairs : List (Node × Node))
  | sequence (items : List Node)

namespace Node

/-- A node that was left out. -/
def absent : Node := .scalar [] .plain

end Node

/-! ## Tags -/

namespace Tag

def coreStart : Text := "tag:yaml.org,2002:"

/-- The handles that are always known. -/
def coreHandles : List (Text × Text) := [("!", "!"), ("!!", coreStart)]

/-- The tags of the format itself are written with two exclamation marks. -/
def short (tag : Text) : Text :=
  if coreStart.isPrefixOf tag then "!!" ++ tag.drop coreStart.length else tag

/-- The tag that a handle and a suffix spell; none if the handle is not
known. -/
def spell? (handles : List (Text × Text)) (handle suffix : Text) : Option Text :=
  if handle.isEmpty then some suffix
  else match handles.lookup handle with
    | some start => if (start ++ suffix).isEmpty then none else some (start ++ suffix)
    | none => none

/-- The style of a scalar with a tag. A lone exclamation mark says nothing. -/
def styleOf (tag : Text) (style : Style) : Style :=
  if tag = ("!" : Text) then style
  else if short tag = ("!!str" : Text) then .quoted
  else .tagged (short tag)

end Tag

/-! ## Parsing -/

/-- What is known while a document is read. -/
structure Parser where
  scanner : Scanner
  handles : List (Text × Text) := []
  /-- The nodes with names, latest first. -/
  named : List (Text × Node) := []

/-- What is said about a node in front of it. -/
structure Properties where
  name : Option Text := none
  tag : Option Text := none

namespace Properties

def isEmpty (q : Properties) : Bool := q.name.isNone && q.tag.isNone

def style (q : Properties) (s : Style) : Style :=
  match q.tag with
  | some tag => Tag.styleOf tag s
  | none => s

end Properties

namespace Parser

def peek (p : Parser) : Option (Token × Parser) := do
  let (t, s) ← p.scanner.peek
  return (t, { p with scanner := s })

def take (p : Parser) : Parser := { p with scanner := p.scanner.take }

/-- Takes the next token and looks at the one after it. -/
def next (p : Parser) : Option (Token × Parser) := p.take.peek

/-- Remembers a node by its name. -/
def finish (q : Properties) (n : Node) (p : Parser) : Node × Parser :=
  match q.name with
  | some name => (n, { p with named := (name, n) :: p.named })
  | none => (n, p)

/-- The properties of a node in either order, and the token after them. -/
def properties (p : Parser) (t : Token) : Option (Properties × Token × Parser) :=
  match t with
  | .anchor name => do
    let (t, p) ← p.next
    match t with
    | .tag handle suffix =>
      let (t, p) ← p.next
      return ({ name := name, tag := ← Tag.spell? p.handles handle suffix }, t, p)
    | _ => return ({ name := name }, t, p)
  | .tag handle suffix => do
    let (t, p) ← p.next
    match t with
    | .anchor name =>
      let (t, p) ← p.next
      return ({ name := name, tag := ← Tag.spell? p.handles handle suffix }, t, p)
    | _ => return ({ tag := ← Tag.spell? p.handles handle suffix }, t, p)
  | _ => some ({}, t, p)

/-! ### Grammar -/

/-- The tokens before which an item, key or value of a block is left out. -/
def blockStops : List Token := [.key, .value, .blockEnd]

/-- Past the comma that parts an entry of a flow from those before it. -/
def pastEntry (first : Bool) (t : Token) (p : Parser) : Option (Token × Parser) :=
  if first then some (t, p)
  else if t = .flowEntry then p.next
  else none

/-- A node that is left out behind its properties. -/
def left (q : Properties) (p : Parser) : Option (Node × Parser) :=
  if q.isEmpty then none else some (p.finish q (.scalar [] (q.style .plain)))

mutual

/-- Reads the node that starts with a token. Blocks are refused inside of
flows; a sequence that is not indented further than its key is allowed only as
part of a mapping. -/
def node (block indentless : Bool) : (fuel : Nat) → Token → Parser → Option (Node × Parser)
  | 0, _, _ => none
  | fuel + 1, t, p => do
    if let .alias name := t then
      return (← p.named.lookup name, p.take)
    let (q, t, p) ← p.properties t
    match t with
    | .scalar text style => return p.take.finish q (.scalar text (q.style style))
    | .flowSequenceStart =>
      let (items, p) ← flowItems true fuel p.take []
      return p.finish q (.sequence items)
    | .flowMappingStart =>
      let (pairs, p) ← flowPairs true fuel p.take []
      return p.finish q (.mapping pairs)
    | .blockSequenceStart =>
      if block then
        let (items, p) ← blockItems fuel p.take []
        return p.finish q (.sequence items)
      else left q p
    | .blockMappingStart =>
      if block then
        let (pairs, p) ← blockPairs fuel p.take []
        return p.finish q (.mapping pairs)
      else left q p
    | .blockEntry =>
      if indentless then
        let (items, p) ← looseItems fuel p []
        return p.finish q (.sequence items)
      else left q p
    | _ => left q p

/-- Reads a node that may be left out before one of the `stops`. -/
def nodeUnless (stops : List Token) (block indentless : Bool) :
    (fuel : Nat) → Token → Parser → Option (Node × Parser)
  | 0, _, _ => none
  | fuel + 1, t, p =>
    if stops.contains t then some (.absent, p) else node block indentless fuel t p

/-- Reads the value of a pair, which may be left out with its mark. -/
def pairValue (stops : List Token) (block : Bool) : (fuel : Nat) → Parser → Option (Node × Parser)
  | 0, _ => none
  | fuel + 1, p => do
    let (t, p) ← p.peek
    if t = .value then
      let (t, p) ← p.next
      nodeUnless stops block block fuel t p
    else return (.absent, p)

/-- The items of a block sequence and its end, behind those `done`. -/
def blockItems : (fuel : Nat) → Parser → (done : List Node) → Option (List Node × Parser)
  | 0, _, _ => none
  | fuel + 1, p, done => do
    let (t, p) ← p.peek
    match t with
    | .blockEntry =>
      let (t, p) ← p.next
      let (item, p) ← nodeUnless [.blockEntry, .blockEnd] true false fuel t p
      blockItems fuel p (item :: done)
    | .blockEnd => return (done.reverse, p.take)
    | _ => none

/-- The items of a sequence that ends where its mapping goes on. -/
def looseItems : (fuel : Nat) → Parser → (done : List Node) → Option (List Node × Parser)
  | 0, _, _ => none
  | fuel + 1, p, done => do
    let (t, p) ← p.peek
    if t = .blockEntry then
      let (t, p) ← p.next
      let (item, p) ← nodeUnless (.blockEntry :: blockStops) true false fuel t p
      looseItems fuel p (item :: done)
    else return (done.reverse, p)

/-- The pairs of a block mapping and its end. -/
def blockPairs : (fuel : Nat) → Parser → (done : List (Node × Node)) →
    Option (List (Node × Node) × Parser)
  | 0, _, _ => none
  | fuel + 1, p, done => do
    let (t, p) ← p.peek
    match t with
    | .key =>
      let (t, p) ← p.next
      let (key, p) ← nodeUnless blockStops true true fuel t p
      let (value, p) ← pairValue blockStops true fuel p
      blockPairs fuel p ((key, value) :: done)
    | .blockEnd => return (done.reverse, p.take)
    | _ => none

/-- The items of a flow sequence and its end. An item with a key mark is a
mapping of one pair. -/
def flowItems (first : Bool) : (fuel : Nat) → Parser → (done : List Node) →
    Option (List Node × Parser)
  | 0, _, _ => none
  | fuel + 1, p, done => do
    let (t, p) ← p.peek
    if t = .flowSequenceEnd then return (done.reverse, p.take)
    let (t, p) ← pastEntry first t p
    match t with
    | .flowSequenceEnd => return (done.reverse, p.take)
    | .key =>
      let (key, p) ← flowKey fuel p.take
      let (value, p) ← pairValue [.flowEntry, .flowSequenceEnd] false fuel p
      flowItems false fuel p (.mapping [(key, value)] :: done)
    | t =>
      let (item, p) ← node false false fuel t p
      flowItems false fuel p (item :: done)

/-- The key of a single pair in a flow sequence; one that is left out takes
the token after it along. -/
def flowKey : (fuel : Nat) → Parser → Option (Node × Parser)
  | 0, _ => none
  | fuel + 1, p => do
    let (t, p) ← p.peek
    if [Token.value, .flowEntry, .flowSequenceEnd].contains t then return (.absent, p.take)
    node false false fuel t p

/-- The pairs of a flow mapping and its end. A node without a key mark has no
value. -/
def flowPairs (first : Bool) : (fuel : Nat) → Parser → (done : List (Node × Node)) →
    Option (List (Node × Node) × Parser)
  | 0, _, _ => none
  | fuel + 1, p, done => do
    let (t, p) ← p.peek
    if t = .flowMappingEnd then return (done.reverse, p.take)
    let (t, p) ← pastEntry first t p
    match t with
    | .flowMappingEnd => return (done.reverse, p.take)
    | .key =>
      let (t, p) ← p.next
      let (key, p) ← nodeUnless [.value, .flowEntry, .flowMappingEnd] false false fuel t p
      let (value, p) ← pairValue [.flowEntry, .flowMappingEnd] false fuel p
      flowPairs false fuel p ((key, value) :: done)
    | t =>
      let (key, p) ← node false false fuel t p
      flowPairs false fuel p ((key, .absent) :: done)

end

/-! ### Documents -/

/-- The format is known in this version. -/
def knowsVersion (major minor : Nat) : Bool := major == 1 && minor == 1

/-- Takes the directives of a document, at most `fuel` of them. Each may occur
only once. -/
def directives : (fuel : Nat) → (versioned : Bool) → Token → Parser → Option (Token × Parser)
  | 0, _, _, _ => none
  | fuel + 1, versioned, t, p =>
    match t with
    | .version major minor => do
      if versioned || !knowsVersion major minor then none
      let (t, p) ← p.next
      directives fuel true t p
    | .tagHandle handle start => do
      if (p.handles.lookup handle).isSome then none
      let (t, p) ← p.next
      directives fuel versioned t { p with handles := p.handles ++ [(handle, start)] }
    | t => some (t, { p with handles := p.handles ++ Tag.coreHandles })

/-- A token that belongs to no document. -/
def isBetweenDocuments : Token → Bool
  | .version _ _ | .tagHandle _ _ | .documentStart | .documentEnd | .streamEnd => true
  | _ => false

/-- Every node of a document takes fewer steps than this. -/
def fuelFor (p : Parser) : Nat := 20 * p.scanner.size + 100

/-- The root of a document that has a start mark. -/
def markedRoot (t : Token) (p : Parser) : Option (Node × Parser) := do
  let fuel := p.fuelFor
  let (t, p) ← directives fuel false t p
  if t ≠ .documentStart then none
  let (t, p) ← p.next
  if isBetweenDocuments t then return (.absent, p)
  node true false fuel t p

/-- The first document of a stream, `some none` if the stream is empty. -/
def document (p : Parser) : Option (Option Node) := do
  let (_, p) ← p.peek
  let (t, p) ← p.next
  if t = .streamEnd then return none
  let (n, p) ←
    if isBetweenDocuments t && t != .documentEnd then markedRoot t p
    else node true false p.fuelFor t { p with handles := Tag.coreHandles }
  let _ ← p.peek
  return some n

end Parser

/-- Reads a document. -/
def Node.ofText? (t : Text) : Option (Option Node) :=
  Parser.document { scanner := Scanner.ofText t }

end PerfReport.Yaml
