import PerfReport.Text.Glyph

/-!
# Padding

A report column has a width counted in glyphs. Longer texts are not cut. A
width above a million is refused: the text then stands unpadded behind a
notice.
-/

namespace PerfReport.Text

def maxWidth : Int := 1000000

def widthNotice : Text := "%!(BADWIDTH)"

/-- The blanks that bring `t` to `width`. -/
def filler (width : Int) (t : Text) : Text := List.replicate (width.toNat - t.size) 32

def padRight (width : Int) (t : Text) : Text :=
  if maxWidth < width then widthNotice ++ t else t ++ filler width t

def padLeft (width : Int) (t : Text) : Text :=
  if maxWidth < width then widthNotice ++ t else filler width t ++ t

end PerfReport.Text
