import PerfReport.Text

/-!
# Glyphs

A byte string read as characters. A byte that begins no well-formed UTF-8
sequence stands for itself, so reading never fails and loses nothing.
-/

namespace PerfReport

inductive Glyph
  | char (c : Char)
  | stray (b : UInt8)
  deriving DecidableEq

namespace Glyph

def bytes : Glyph → Text
  | .char c => String.utf8EncodeChar c
  | .stray b => [b]

def isTail (b : UInt8) : Bool := 0x80 ≤ b && b ≤ 0xBF

/-- The bytes that may follow `a` in a sequence of two bytes or more. -/
def isSecond (a b : UInt8) : Bool :=
  if a = 0xE0 then 0xA0 ≤ b && b ≤ 0xBF
  else if a = 0xED then 0x80 ≤ b && b ≤ 0x9F
  else if a = 0xF0 then 0x90 ≤ b && b ≤ 0xBF
  else if a = 0xF4 then 0x80 ≤ b && b ≤ 0x8F
  else isTail b

/-- Payload of a continuation byte. -/
def low6 (b : UInt8) : Nat := b.toNat % 64

/-- The glyph that `a` begins when `rest` follows it, and how many bytes of
`rest` belong to it. -/
def leading (a : UInt8) (rest : Text) : Glyph × Nat :=
  if a < 0x80 then (.char (Char.ofNat a.toNat), 0)
  else match rest with
    | [] => (.stray a, 0)
    | b :: more =>
      if !isSecond a b then (.stray a, 0)
      else if 0xC2 ≤ a && a ≤ 0xDF then
        (.char (Char.ofNat (a.toNat % 32 * 64 + low6 b)), 1)
      else match more with
        | [] => (.stray a, 0)
        | c :: more =>
          if !isTail c then (.stray a, 0)
          else if 0xE0 ≤ a && a ≤ 0xEF then
            (.char (Char.ofNat ((a.toNat % 16 * 64 + low6 b) * 64 + low6 c)), 2)
          else match more with
            | [] => (.stray a, 0)
            | d :: _ =>
              if isTail d && 0xF0 ≤ a && a ≤ 0xF4 then
                (.char (Char.ofNat (((a.toNat % 8 * 64 + low6 b) * 64 + low6 c) * 64 + low6 d)), 3)
              else (.stray a, 0)

end Glyph

namespace Text

/-- The glyphs after the next `skip` bytes, behind those already `done`
(latest first). -/
def glyphsAfter : (skip : Nat) → Text → (done : List Glyph) → List Glyph
  | _, [], done => done.reverse
  | k + 1, _ :: t, done => glyphsAfter k t done
  | 0, b :: t, done =>
    let (g, k) := Glyph.leading b t
    glyphsAfter k t (g :: done)

def glyphs (t : Text) : List Glyph := glyphsAfter 0 t []

/-- How many positions the text takes in a report. -/
def size (t : Text) : Nat := t.glyphs.length

def ofGlyphs (gs : List Glyph) : Text := gs.flatMap Glyph.bytes

/-- Every byte belongs to a character. -/
def isWellFormed (t : Text) : Bool := t.glyphs.all fun
  | .char _ => true
  | .stray _ => false

end Text

end PerfReport
