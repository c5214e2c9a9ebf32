import PerfReport.Text.Glyph
import PerfReport.Yaml.Char
import PerfReport.Yaml.Scalar
import PerfReport.Yaml.Token

/-!
# Written forms of scalars

A text is written bare where it can be: it must not be taken for anything else
and must not hold or resemble an indicator. Otherwise it stands between single
quotes, between double quotes if characters have to be escaped or if it would
be taken for a number or a word, or as an indented block if it has lines.
-/

namespace PerfReport.Yaml

inductive Form
  | bare
  | single
  | double
  | block
  deriving DecidableEq

namespace Form

/-! ## What a text looks like -/

/-- Shown as it is. -/
def isShown (c : Char) : Bool :=
  let n := c.toNat
  n == 10 || (0x20 ≤ n && n ≤ 0x7E) || (0xA0 ≤ n && n ≤ 0xFFFD && n != 0xFEFF)

def blankNext : List Char → Bool
  | [] => true
  | c :: _ => isBlank c

/-- An indicator behind the first character: a colon at the end of a word or
a number sign at its start. -/
def hasIndicator : (afterGap : Bool) → List Char → Bool
  | _, [] => false
  | afterGap, c :: cs =>
    (c == ':' && blankNext cs) || (c == '#' && afterGap)
      || hasIndicator (isBlank c || isBreak c) cs

def startsWithIndicator : List Char → Bool
  | [] => false
  | c :: cs =>
    indicators.contains c || ((c == '?' || c == ':' || c == '-') && blankNext cs)

/-- Begins like a document marker. -/
def startsWithMarker : List Char → Bool
  | a :: b :: c :: _ => (a == '-' || a == '.') && a == b && b == c
  | _ => false

def hasBreak (cs : List Char) : Bool := cs.any isBreak

/-- A blank before a line end. -/
def hasSpaceBreak : List Char → Bool
  | a :: b :: cs => (a == ' ' && isBreak b) || hasSpaceBreak (b :: cs)
  | _ => false

/-- A blank after a line end. -/
def hasBreakSpace : List Char → Bool
  | a :: b :: cs => (isBreak a && b == ' ') || hasBreakSpace (b :: cs)
  | _ => false

/-- Characters that have to be escaped, tabs apart. -/
def hasHidden (cs : List Char) : Bool := cs.any fun c => c != '\t' && !isShown c

def endsWithSpace (cs : List Char) : Bool := cs.getLast? == some ' '

def startsWithSpace (cs : List Char) : Bool := cs.head? == some ' '

/-! ## Choosing a form -/

def allowsBare (cs : List Char) : Bool :=
  !(startsWithSpace cs || endsWithSpace cs || hasBreak cs || cs.contains '\t' || hasHidden cs
    || startsWithMarker cs || startsWithIndicator cs || hasIndicator false cs)

def allowsSingle (cs : List Char) : Bool :=
  !(hasSpaceBreak cs || hasBreakSpace cs || cs.contains '\t' || hasHidden cs)

def allowsBlock (cs : List Char) : Bool :=
  !(endsWithSpace cs || hasSpaceBreak cs || hasHidden cs)

/-- A part of a number in base sixty: one digit, or two below sixty. -/
def isSixtieth : Text → Bool
  | [_] => true
  | [a, _] => a ≤ 53
  | _ => false

/-- The parts of a number in base sixty and its fraction, in the middle of a
part. -/
def isSixtieths : (part : Text) → Text → Bool
  | part, [] => isSixtieth part
  | part, b :: t =>
    if Text.isDigit b then isSixtieths (part ++ [b]) t
    else if b = 58 then isSixtieth part && isSixtieths [] t
    else b == 46 && isSixtieth part && t.all fun b => Text.isDigit b || b == 95

/-- Some readers take texts such as `12:30` for numbers in base sixty. -/
def isSexagesimal (t : Text) : Bool :=
  let body := (takeSign t).2
  let inFirst := fun b => Text.isDigit b || b == 95
  match body, body.dropWhile inFirst with
  | a :: _, 58 :: rest => Text.isDigit a && isSixtieths [] rest
  | _, _ => false

/-- A bare word that every reader takes for a text. -/
def staysText (t : Text) : Bool :=
  Sense.ofText t == .text && !isSexagesimal t && (Sense.looseTruth? t).isNone

/-- The form that a scalar asks for. -/
def wanted (style : Style) (t : Text) (cs : List Char) : Form :=
  if cs.contains '\n' then .block
  else match style with
    | .plain => .bare
    | .quoted => if staysText t then .bare else .double
    | .tagged _ => .bare

/-- The form that a scalar gets. -/
def choose (style : Style) (t : Text) (cs : List Char) : Form :=
  match wanted style t cs with
  | .bare => if allowsBare cs then .bare else if allowsSingle cs then .single else .double
  | .single => if allowsSingle cs then .single else .double
  | .block => if allowsBlock cs then .block else .double
  | .double => .double

/-! ## Writing -/

def escapeLetter? (c : Char) : Option Char :=
  match c.toNat with
  | 0x00 => some '0'
  | 0x07 => some 'a'
  | 0x08 => some 'b'
  | 0x09 => some 't'
  | 0x0A => some 'n'
  | 0x0B => some 'v'
  | 0x0C => some 'f'
  | 0x0D => some 'r'
  | 0x1B => some 'e'
  | 0x22 => some '"'
  | 0x5C => some '\\'
  | 0x85 => some 'N'
  | 0xA0 => some '_'
  | 0x2028 => some 'L'
  | 0x2029 => some 'P'
  | _ => none

def upperHexDigit (d : Nat) : Char := if d < 10 then Char.ofNat (48 + d) else Char.ofNat (55 + d)

/-- The `width` low hexadecimal digits of `n`, in capitals. -/
def upperHex : (width : Nat) → (n : Nat) → List Char
  | 0, _ => []
  | w + 1, n => upperHex w (n / 16) ++ [upperHexDigit (n % 16)]

/-- A character between double quotes, escaped if it has to be or if `always`. -/
def escape (always : Bool) (c : Char) : List Char :=
  if !always && isShown c && !isBreak c && c != '"' && c != '\\' then [c]
  else match escapeLetter? c with
    | some l => ['\\', l]
    | none =>
      let n := c.toNat
      if n ≤ 0xFF then '\\' :: 'x' :: upperHex 2 n
      else if n ≤ 0xFFFF then '\\' :: 'u' :: upperHex 4 n
      else '\\' :: 'U' :: upperHex 8 n

/-- Behind a byte order mark every character is escaped. -/
def writeDouble (cs : List Char) : List Char :=
  '"' :: (cs.flatMap (escape (cs.head? == some byteOrderMark)) ++ ['"'])

def spaces (n : Nat) : List Char := List.replicate n ' '

/-- Lines after the first are indented; a quote is written twice. -/
def singleBody (indent : Nat) : (atStart : Bool) → List Char → List Char
  | _, [] => []
  | atStart, c :: cs =>
    if isBreak c then c :: singleBody indent true cs
    else (if atStart then spaces indent else [])
      ++ (if c == '\'' then ['\'', '\''] else [c]) ++ singleBody indent false cs

def writeSingle (indent : Nat) (cs : List Char) : List Char :=
  '\'' :: (singleBody indent false cs ++ ['\''])

/-- A digit says how far a block is indented if its first line does not show
it; a sign says what becomes of the line ends at its end. -/
def blockHints (step : Nat) (cs : List Char) : List Char :=
  let start := match cs with
    | c :: _ => if c == ' ' || isBreak c then [Char.ofNat (48 + step)] else []
    | [] => []
  let finish := match cs.reverse with
    | a :: b :: _ => if !isBreak a then ['-'] else if isBreak b then ['+'] else []
    | [a] => if isBreak a then ['+'] else ['-']
    | [] => ['-']
  start ++ finish

def blockBody (indent : Nat) : (atStart : Bool) → List Char → List Char
  | _, [] => []
  | atStart, c :: cs =>
    if isBreak c then c :: blockBody indent true cs
    else (if atStart then spaces indent else []) ++ c :: blockBody indent false cs

/-- A block without its last line end. -/
def writeBlock (step indent : Nat) (cs : List Char) : List Char :=
  let body := match cs with
    | c :: _ => if isBreak c then blockBody indent true cs else '\n' :: blockBody indent true cs
    | [] => []
  '|' :: (blockHints step cs ++ body)

end Form

end PerfReport.Yaml
