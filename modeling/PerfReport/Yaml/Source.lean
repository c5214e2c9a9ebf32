import PerfReport.Yaml.Char

/-!
# Sources

A document is read character by character, and its bytes are fetched portion
by portion: a portion is fetched only when characters are asked for that are
not there yet. Bytes that cannot be read spoil a document only once the portion
that holds them is fetched.
-/

namespace PerfReport.Yaml

/-- A place in the document. -/
structure Mark where
  line : Nat := 0
  column : Nat := 0
  /-- How many characters are before it. -/
  index : Nat := 0

/-- How far a document was read and how much of it was fetched. -/
structure Reader where
  mark : Mark := {}
  /-- The line ends since the last character that was no blank. -/
  newlines : Nat := 0
  /-- How many characters are fetched and not read. Past the end of the
  document the reader pretends to have some more. -/
  ready : Nat := 0
  /-- The lengths of the portions that were not fetched. -/
  portions : List Nat
  /-- What follows the portions cannot be read. -/
  isSpoiled : Bool
  /-- When it last fetched something, a byte order mark came next. -/
  fetchedAtMark : Bool := false

namespace Reader

/-- Fetches portions until `n` characters are ready or the document ends. -/
def fetch (n : Nat) (isSpoiled : Bool) : (ready : Nat) → List Nat → Option (Nat × List Nat)
  | ready, [] => if isSpoiled then none else some (ready + 1, [])
  | ready, size :: portions =>
    if n ≤ ready + size then some (ready + size, portions)
    else fetch n isSpoiled (ready + size) portions

/-- Asks for `n` characters of what is left, which is `rest`. -/
def need (r : Reader) (n : Nat) (rest : List Char) : Option Reader :=
  if n ≤ r.ready then some r
  else match fetch n r.isSpoiled r.ready r.portions with
    | some (ready, portions) =>
      some { r with
        ready := ready
        portions := portions
        fetchedAtMark := rest.head? == some byteOrderMark }
    | none => none

/-- Past a character that ends no line. -/
def past (r : Reader) (c : Char) : Reader :=
  { r with
    mark := ⟨r.mark.line, r.mark.column + 1, r.mark.index + 1⟩
    newlines := if isBlank c then r.newlines else 0
    ready := r.ready - 1 }

/-- Past a line end of `width` characters. -/
def pastBreak (r : Reader) (width : Nat) : Reader :=
  { r with
    mark := ⟨r.mark.line + 1, 0, r.mark.index + width⟩
    newlines := r.newlines + 1
    ready := r.ready - width }

end Reader

/-- What is left of a document, and the reader in front of it. -/
structure Source where
  rest : List Char
  reader : Reader

namespace Source

def mark (s : Source) : Mark := s.reader.mark

def need (n : Nat) (s : Source) : Option Source :=
  (s.reader.need n s.rest).map fun r => { s with reader := r }

/-- Past one character, which ends no line. The end of the document counts as
one too. -/
def skip (s : Source) : Source :=
  match s.rest with
  | [] => { s with reader := s.reader.past (Char.ofNat 0) }
  | c :: cs => ⟨cs, s.reader.past c⟩

def skipMany : (n : Nat) → Source → Source
  | 0, s => s
  | n + 1, s => skipMany n s.skip

/-- Past a line end, if one comes next. -/
def skipBreak (s : Source) : Source :=
  match s.rest with
  | '\r' :: '\n' :: cs => ⟨cs, s.reader.pastBreak 2⟩
  | c :: cs => if isBreak c then ⟨cs, s.reader.pastBreak 1⟩ else s
  | [] => s

/-- Past a line end that may have to be fetched. -/
def pastLine (s : Source) : Option Source :=
  if s.rest.isEmpty || !atLineEnd s.rest then some s else (s.need 2).map skipBreak

/-- Reads on as long as characters pass the test, and asks for one more behind
each; the characters are added to `text`, latest first. -/
def takeFrom (p : Char → Bool) : List Char → Reader → (text : List Char) →
    Option (List Char × Source)
  | [], r, text => some (text.reverse, ⟨[], r⟩)
  | c :: cs, r, text =>
    if p c then
      match (r.past c).need 1 cs with
      | some r => takeFrom p cs r (c :: text)
      | none => none
    else some (text.reverse, ⟨c :: cs, r⟩)

/-- The characters that pass the test, up to the first that fails it. -/
def takeWhile (p : Char → Bool) (s : Source) : Option (List Char × Source) := do
  let s ← s.need 1
  takeFrom p s.rest s.reader []

def skipWhile (p : Char → Bool) (s : Source) : Option Source := (s.takeWhile p).map Prod.snd

end Source

end PerfReport.Yaml
