/-!
# Characters of a document

Which characters a configuration document may hold, and which of them end a
line or separate words.
-/

namespace PerfReport.Yaml

/-- Control characters other than tabs and line ends are not allowed. -/
def isAllowed (c : Char) : Bool :=
  let n := c.toNat
  n == 9 || n == 10 || n == 13 || (0x20 ≤ n && n ≤ 0x7E) || n == 0x85 ||
    (0xA0 ≤ n && n ≤ 0xFFFD) || 0x10000 ≤ n

def byteOrderMark : Char := '\ufeff'

/-! ## Line ends and blanks -/

def nextLine : Char := '\u0085'

def lineSeparator : Char := '\u2028'

def paragraphSeparator : Char := '\u2029'

/-- Ends a line, alone or as the first of `\r\n`. -/
def isBreak (c : Char) : Bool :=
  c == '\n' || c == '\r' || c == nextLine || c == lineSeparator || c == paragraphSeparator

/-- The separators of lines and paragraphs are kept, all other line ends are
read as a newline. -/
def breakChar (c : Char) : Char :=
  if c == lineSeparator || c == paragraphSeparator then c else '\n'

def isBlank (c : Char) : Bool := c == ' ' || c == '\t'

/-- A line end or the end of the document comes next. -/
def atLineEnd : List Char → Bool
  | [] => true
  | c :: _ => isBreak c

/-- A blank, a line end or the end of the document comes next. -/
def atGap : List Char → Bool
  | [] => true
  | c :: _ => isBlank c || isBreak c

/-! ## Indicators -/

/-- No plain scalar starts with one of these. -/
def indicators : List Char :=
  ['#', ',', '[', ']', '\x7b', '\x7d', '&', '*', '!', '|', '>', '\'', '"', '%', '@', '\x60']

/-- Three dashes or three dots alone, at the start of a line. -/
def isMarker (mark : Char) : List Char → Bool
  | a :: b :: c :: cs => a == mark && b == mark && c == mark && atGap cs
  | _ => false

/-- The characters of names: letters, digits, the dash and the underscore. -/
def isWordChar (c : Char) : Bool := c.isAlphanum || c == '-' || c == '_'

/-- The characters of an address, escapes apart. -/
def isAddressChar (c : Char) : Bool :=
  isWordChar c || [';', '/', '?', ':', '@', '&', '=', '+', '$', ',', '.', '!', '~', '*', '\'',
    '(', ')', '[', ']'].contains c

end PerfReport.Yaml
