import PerfReport.Text.Glyph
import PerfReport.Yaml.Source

/-!
# Portions

A document is fetched in portions of 512 bytes; a character that does not fit
belongs to the next one. The first bytes say how characters are encoded: after
a byte order mark in pairs of bytes or in UTF-8, otherwise in UTF-8.
-/

namespace PerfReport.Yaml

/-- What the next bytes of a document are. -/
inductive Lump
  /-- A character of so many bytes. -/
  | char (c : Char) (width : Nat)
  /-- So many bytes that are no character. -/
  | bad (width : Nat)
  /-- The document ends inside a character. -/
  | cut
  deriving DecidableEq

namespace Lump

/-- A character that a document may hold. -/
def ofCode (code width : Nat) : Lump :=
  let c := Char.ofNat code
  if c.toNat == code && isAllowed c then .char c width else .bad width

/-! ## UTF-8 -/

/-- How many bytes a character with this first byte has. -/
def widthOf (a : UInt8) : Nat :=
  if a < 0x80 then 1
  else if 0xC0 ≤ a && a ≤ 0xDF then 2
  else if 0xE0 ≤ a && a ≤ 0xEF then 3
  else if 0xF0 ≤ a && a ≤ 0xF7 then 4
  else 0

def utf8 (a : UInt8) (rest : Text) : Lump :=
  let width := widthOf a
  if width = 0 then .bad 1
  else if (rest.take (width - 1)).length < width - 1 then .cut
  else match Glyph.leading a rest with
    | (.char c, _) => if isAllowed c then .char c width else .bad width
    | (.stray _, _) => .bad width

/-! ## UTF-16 -/

/-- The value of a pair of bytes. -/
def unit (bigEndian : Bool) (a b : UInt8) : Nat :=
  if bigEndian then a.toNat * 256 + b.toNat else b.toNat * 256 + a.toNat

/-- A unit that starts a pair of units, or one that ends it. -/
def isHigh (n : Nat) : Bool := 0xD800 ≤ n && n ≤ 0xDBFF

def isLow (n : Nat) : Bool := 0xDC00 ≤ n && n ≤ 0xDFFF

def utf16 (bigEndian : Bool) (a : UInt8) (rest : Text) : Lump :=
  match rest with
  | [] => .cut
  | b :: rest =>
    let n := unit bigEndian a b
    if isLow n then .bad 2
    else if !isHigh n then ofCode n 2
    else match rest with
      | c :: d :: _ =>
        let m := unit bigEndian c d
        if isLow m then ofCode (0x10000 + (n - 0xD800) * 0x400 + (m - 0xDC00)) 4 else .bad 4
      | _ => .cut

end Lump

/-- How the characters of a document are encoded. -/
inductive Encoding
  | utf8
  | utf16 (bigEndian : Bool)
  deriving DecidableEq

def Encoding.leading : Encoding → UInt8 → Text → Lump
  | .utf8 => Lump.utf8
  | .utf16 bigEndian => Lump.utf16 bigEndian

/-- The encoding of a document and the width of the mark that tells it. -/
def Encoding.detect : Text → Encoding × Nat
  | 0xFF :: 0xFE :: _ => (.utf16 false, 2)
  | 0xFE :: 0xFF :: _ => (.utf16 true, 2)
  | 0xEF :: 0xBB :: 0xBF :: _ => (.utf8, 3)
  | _ => (.utf8, 0)

/-- The bytes of a portion. -/
def portionSize : Nat := 512

/-- A document as it is divided into portions: its characters and the lengths
of the portions, both latest first. -/
structure Division where
  chars : List Char := []
  portions : List Nat := []
  /-- The portion under way: its bytes and its characters so far. -/
  used : Nat := 0
  current : List Char := []

namespace Division

/-- Closes the portion under way. -/
def close (d : Division) : Division :=
  { chars := d.current ++ d.chars, portions := d.current.length :: d.portions }

/-- Makes room for `width` more bytes. -/
def reserve (d : Division) (width : Nat) : Division :=
  if portionSize < d.used + width then d.close else d

def push (d : Division) (c : Char) (width : Nat) : Division :=
  let d := d.reserve width
  { d with used := d.used + width, current := c :: d.current }

def source (d : Division) (isSpoiled : Bool) : Source where
  rest := d.chars.reverse
  reader := { portions := d.portions.reverse, isSpoiled := isSpoiled }

/-- Divides bytes, the first `skip` of which belong to what is before them.
The portion of a character that cannot be read is lost. -/
def divide (e : Encoding) : (skip : Nat) → Text → Division → Source
  | _, [], d => d.close.source false
  | k + 1, _ :: t, d => divide e k t d
  | 0, b :: t, d =>
    match e.leading b t with
    | .char c width => divide e (width - 1) t (d.push c width)
    | .bad width => (d.reserve width).source true
    | .cut => d.close.source true

end Division

/-- The source of a document. An empty one counts as an empty line. -/
def Source.ofText (t : Text) : Source :=
  if t.isEmpty then Division.divide .utf8 0 [10] {}
  else
    let (e, width) := Encoding.detect t
    Division.divide e width t { used := width }

end PerfReport.Yaml
