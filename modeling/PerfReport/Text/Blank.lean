import PerfReport.Text.Glyph

/-!
# Blanks and fields

A record line is a sequence of fields: maximal runs of glyphs that are not
white space. A stray byte is never white space.
-/

namespace PerfReport

/-- The characters with the White_Space property. -/
def isBlankChar (c : Char) : Bool :=
  let n := c.toNat
  (9 ≤ n && n ≤ 13) || n == 0x20 || n == 0x85 || n == 0xA0 || n == 0x1680 ||
    (0x2000 ≤ n && n ≤ 0x200A) || n == 0x2028 || n == 0x2029 || n == 0x202F ||
    n == 0x205F || n == 0x3000

def Glyph.isBlank : Glyph → Bool
  | .char c => isBlankChar c
  | .stray _ => false

namespace Text

/-- A finished run in front of the runs after it; an empty run is none. -/
def pushRun (run : Text) (runs : List Text) : List Text :=
  if run.isEmpty then runs else run :: runs

/-- One glyph to the left of a partly split text. -/
def fieldStep (g : Glyph) (s : Text × List Text) : Text × List Text :=
  if g.isBlank then ([], pushRun s.1 s.2) else (g.bytes ++ s.1, s.2)

def fields (t : Text) : List Text :=
  let s := t.glyphs.foldr fieldStep ([], [])
  pushRun s.1 s.2

/-- No field at all. -/
def isBlankText (t : Text) : Bool := t.glyphs.all Glyph.isBlank

end Text

end PerfReport
