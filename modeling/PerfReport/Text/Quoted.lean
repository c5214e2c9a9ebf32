import PerfReport.Text.Printable

/-!
# Quoted text

A message shows a piece of input between double quotes. Printable characters
stand for themselves; everything else, the quote and the backslash are
escaped, so the quoted form is always printable.
-/

namespace PerfReport.Text

/-- The letter after the backslash for the control characters that have one. -/
def escapeLetter? (n : Nat) : Option UInt8 :=
  if n = 7 then some 97 else if n = 8 then some 98 else if n = 9 then some 116
  else if n = 10 then some 110 else if n = 11 then some 118 else if n = 12 then some 102
  else if n = 13 then some 114 else none

/-- A character between quotes of the code `mark`. -/
def quoteChar (mark : Nat) (c : Char) : Text :=
  let n := c.toNat
  if n = mark || n = 92 then [92, UInt8.ofNat n]
  else if isPrintable c then String.utf8EncodeChar c
  else match escapeLetter? n with
    | some l => [92, l]
    | none =>
      if n < 0x20 || n = 0x7F then 92 :: 120 :: hex 2 n
      else if n < 0x10000 then 92 :: 117 :: hex 4 n
      else 92 :: 85 :: hex 8 n

def quoteGlyph : Glyph → Text
  | .char c => quoteChar 34 c
  | .stray b => 92 :: 120 :: hex 2 b.toNat

def quoted (t : Text) : Text := 34 :: (t.glyphs.flatMap quoteGlyph ++ [34])

/-- A byte as the character with its code, between single quotes. -/
def quotedByte (b : UInt8) : Text := 39 :: (quoteChar 39 (Char.ofNat b.toNat) ++ [39])

end PerfReport.Text
