import PerfReport.Yaml.Token

/-!
# Plain and quoted scalars

Scalars that may run over several lines: a single line end between words is
read as a blank, further ones as themselves.
-/

namespace PerfReport.Yaml

/-- Blanks and line ends between two words of a scalar. -/
structure Gap where
  /-- Latest first; dropped once a line ends. -/
  blanks : List Char := []
  broken : Bool := false
  first : Option Char := none
  /-- The line ends after the first, latest first. -/
  more : List Char := []

namespace Gap

def isEmpty (g : Gap) : Bool := !g.broken && g.blanks.isEmpty

def addBlank (g : Gap) (c : Char) : Gap :=
  if g.broken then g else { g with blanks := c :: g.blanks }

def addBreak (g : Gap) (c : Char) : Gap :=
  if g.broken then { g with more := breakChar c :: g.more }
  else { g with blanks := [], broken := true, first := some (breakChar c) }

/-- What the gap means. -/
def chars (g : Gap) : List Char :=
  if !g.broken then g.blanks.reverse
  else match g.first with
    | some '\n' => if g.more.isEmpty then [' '] else g.more.reverse
    | some c => c :: g.more.reverse
    | none => g.more.reverse

/-- `text` is latest first. -/
def joinOnto (g : Gap) (text : List Char) : List Char := g.chars.reverse ++ text

end Gap

/-- A document marker may stand here. -/
def atMarker (r : Reader) (cs : List Char) : Bool :=
  r.mark.column == 0 && (isMarker '-' cs || isMarker '.' cs)

/-! ## Plain scalars -/

def isFlowMark (c : Char) : Bool :=
  c == ',' || c == '?' || c == '[' || c == ']' || c == '\x7b' || c == '\x7d'

/-- The indicator that ends a plain scalar. -/
def endsPlain (inFlow : Bool) (c : Char) (rest : List Char) : Bool :=
  (c == ':' && atGap rest) || (inFlow && isFlowMark c)

/-- Reads on in a plain scalar whose lines have to be indented by `indent`;
none if a tab is in the indentation. Behind a gap four characters are asked
for, since a document marker may stand there. -/
def plainFrom (inFlow : Bool) (indent : Int) :
    List Char → Reader → (text : List Char) → Gap → Option Scanned
  | [], r, text, g => do
    if g.isEmpty || (!inFlow && r.mark.column < indent) then
      return ⟨text.reverse, ⟨[], r⟩, g.broken⟩
    return ⟨text.reverse, ⟨[], ← r.need 4 []⟩, g.broken⟩
  | '\r' :: '\n' :: cs, r, text, g => do
    let r ← r.need 2 ('\r' :: '\n' :: cs)
    plainFrom inFlow indent cs (← (r.pastBreak 2).need 1 cs) text (g.addBreak '\n')
  | c :: cs, r, text, g =>
    let stop (r : Reader) : Option Scanned := some ⟨text.reverse, ⟨c :: cs, r⟩, g.broken⟩
    if isBreak c then do
      let r ← r.need 2 (c :: cs)
      plainFrom inFlow indent cs (← (r.pastBreak 1).need 1 cs) text (g.addBreak c)
    else if isBlank c then
      if c == '\t' && g.broken && r.mark.column < indent then none
      else do plainFrom inFlow indent cs (← (r.past c).need 1 cs) text (g.addBlank c)
    else if g.isEmpty then
      if endsPlain inFlow c cs then stop r
      else do plainFrom inFlow indent cs (← (r.past c).need 2 cs) (c :: text) {}
    else if !inFlow && r.mark.column < indent then stop r
    else do
      let r ← r.need 4 (c :: cs)
      if atMarker r (c :: cs) || c == '#' || endsPlain inFlow c cs then stop r
      else plainFrom inFlow indent cs (← (r.past c).need 2 cs) (c :: g.joinOnto text) {}

/-! ## Quoted scalars -/

def hexDigit? (c : Char) : Option Nat :=
  if c.isDigit then some (c.toNat - 48)
  else if 'a' ≤ c && c ≤ 'f' then some (c.toNat - 87)
  else if 'A' ≤ c && c ≤ 'F' then some (c.toNat - 55)
  else none

/-- The character with the code that the digits spell. -/
def codeChar? (digits : List Char) : Option Char := do
  let n ← digits.foldlM (fun n c => (hexDigit? c).map (16 * n + ·)) 0
  if n < 0xD800 || (0xDFFF < n && n ≤ 0x10FFFF) then some (Char.ofNat n) else none

/-- What a letter after a backslash stands for. -/
def escaped? (c : Char) : Option Char :=
  match c with
  | '0' => some (Char.ofNat 0)
  | 'a' => some (Char.ofNat 7)
  | 'b' => some (Char.ofNat 8)
  | 't' | '\t' => some '\t'
  | 'n' => some '\n'
  | 'v' => some (Char.ofNat 11)
  | 'f' => some (Char.ofNat 12)
  | 'r' => some '\r'
  | 'e' => some (Char.ofNat 27)
  | ' ' => some ' '
  | '"' => some '"'
  | '\'' => some '\''
  | '\\' => some '\\'
  | 'N' => some nextLine
  | '_' => some '\u00a0'
  | 'L' => some lineSeparator
  | 'P' => some paragraphSeparator
  | _ => none

namespace Reader

def pastAll (r : Reader) (cs : List Char) : Reader := cs.foldl past r

/-- Past an escaped code, whose digits are asked for together. -/
def pastCode (r : Reader) (letter : Char) (digits rest : List Char) : Option Reader := do
  let r ← (r.pastAll ['\\', letter]).need digits.length (digits ++ rest)
  (r.pastAll digits).need 2 rest

/-- Asks for what has to be there at the start of a run of characters: behind
a gap a document marker may stand. -/
def atRun (r : Reader) (g : Gap) (rest : List Char) : Option Reader :=
  if g.isEmpty then some r
  else match r.need 4 rest with
    | some r => if atMarker r rest then none else some r
    | none => none

end Reader

/-- Reads on between single quotes; a quote is written twice. -/
def singleFrom : List Char → Reader → (text : List Char) → Gap → Option Scanned
  | [], _, _, _ => none
  | '\'' :: '\'' :: cs, r, text, g => do
    let r ← r.atRun g ('\'' :: '\'' :: cs)
    singleFrom cs (← (r.pastAll ['\'', '\'']).need 2 cs) ('\'' :: g.joinOnto text) {}
  | '\'' :: cs, r, text, g => do
    let r ← r.atRun g ('\'' :: cs)
    return ⟨(g.joinOnto text).reverse, ⟨cs, r.past '\''⟩, false⟩
  | '\r' :: '\n' :: cs, r, text, g => do
    let r ← r.need 2 ('\r' :: '\n' :: cs)
    singleFrom cs (← (r.pastBreak 2).need 1 cs) text (g.addBreak '\n')
  | c :: cs, r, text, g =>
    if isBreak c then do
      let r ← r.need 2 (c :: cs)
      singleFrom cs (← (r.pastBreak 1).need 1 cs) text (g.addBreak c)
    else if isBlank c then do
      singleFrom cs (← (r.past c).need 1 cs) text (g.addBlank c)
    else do
      let r ← r.atRun g (c :: cs)
      singleFrom cs (← (r.past c).need 2 cs) (c :: g.joinOnto text) {}

/-- The gap after a line end that was escaped: nothing stands for it. -/
def escapedGap : Gap := { broken := true }

/-- Nothing stands between an escaped line end and this place. -/
def afterEscape (r : Reader) (g : Gap) : Bool :=
  g.broken && g.first.isNone && g.more.isEmpty && r.mark.column == 0

/-- Reads on between double quotes. A backslash escapes a character, a code in
hexadecimal digits or the end of a line. -/
def doubleFrom : List Char → Reader → (text : List Char) → Gap → Option Scanned
  | [], _, _, _ => none
  | '"' :: cs, r, text, g => do
    let r ← if afterEscape r g then some r else r.atRun g ('"' :: cs)
    return ⟨(g.joinOnto text).reverse, ⟨cs, r.past '"'⟩, false⟩
  | '\\' :: 'x' :: a :: b :: cs, r, text, g => do
    let r ← r.atRun g ('\\' :: 'x' :: a :: b :: cs)
    let x ← codeChar? [a, b]
    doubleFrom cs (← r.pastCode 'x' [a, b] cs) (x :: g.joinOnto text) {}
  | '\\' :: 'u' :: a :: b :: c :: d :: cs, r, text, g => do
    let r ← r.atRun g ('\\' :: 'u' :: a :: b :: c :: d :: cs)
    let x ← codeChar? [a, b, c, d]
    doubleFrom cs (← r.pastCode 'u' [a, b, c, d] cs) (x :: g.joinOnto text) {}
  | '\\' :: 'U' :: a :: b :: c :: d :: e :: f :: h :: i :: cs, r, text, g => do
    let r ← r.atRun g ('\\' :: 'U' :: a :: b :: c :: d :: e :: f :: h :: i :: cs)
    let x ← codeChar? [a, b, c, d, e, f, h, i]
    doubleFrom cs (← r.pastCode 'U' [a, b, c, d, e, f, h, i] cs) (x :: g.joinOnto text) {}
  | '\\' :: '\r' :: '\n' :: cs, r, text, g => do
    let r ← r.atRun g ('\\' :: '\r' :: '\n' :: cs)
    let r ← r.need 3 ('\\' :: '\r' :: '\n' :: cs)
    doubleFrom cs (← ((r.past '\\').pastBreak 2).need 1 cs) (g.joinOnto text) escapedGap
  | '\\' :: l :: cs, r, text, g => do
    let r ← r.atRun g ('\\' :: l :: cs)
    if isBreak l then
      let r ← r.need 3 ('\\' :: l :: cs)
      doubleFrom cs (← ((r.past '\\').pastBreak 1).need 1 cs) (g.joinOnto text) escapedGap
    else
      let x ← escaped? l
      doubleFrom cs (← (r.pastAll ['\\', l]).need 2 cs) (x :: g.joinOnto text) {}
  | '\r' :: '\n' :: cs, r, text, g => do
    let r ← r.need 2 ('\r' :: '\n' :: cs)
    doubleFrom cs (← (r.pastBreak 2).need 1 cs) text (g.addBreak '\n')
  | c :: cs, r, text, g =>
    if isBreak c then do
      let r ← r.need 2 (c :: cs)
      doubleFrom cs (← (r.pastBreak 1).need 1 cs) text (g.addBreak c)
    else if isBlank c then do
      doubleFrom cs (← (r.past c).need 1 cs) text (g.addBlank c)
    else if c == '\\' then none
    else do
      let r ← r.atRun g (c :: cs)
      doubleFrom cs (← (r.past c).need 2 cs) (c :: g.joinOnto text) {}

/-! ## Scalars from their start -/

/-- The plain scalar that starts here. -/
def plainScalar (inFlow : Bool) (indent : Int) (s : Source) : Option Scanned := do
  let s ← s.need 4
  plainFrom inFlow indent s.rest s.reader [] {}

/-- The scalar behind a quote. -/
def quotedScalar (isDouble : Bool) (s : Source) : Option Scanned := do
  let s ← s.skip.need 4
  (if isDouble then doubleFrom else singleFrom) s.rest s.reader [] {}

end PerfReport.Yaml
