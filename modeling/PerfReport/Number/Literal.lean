import PerfReport.Number.Binary64

/-!
# Number literals

What a field of a record may spell. A whole number is an optional sign and
decimal digits, within 64 bits. A real number is a decimal or hexadecimal
numeral with an optional fraction and exponent, or one of the words for the
infinities and the indefinite value; it denotes the nearest double, and one
that is out of range denotes nothing.
-/

namespace PerfReport

/-! ## Signs -/

/-- The sign in front of a literal and what follows it. -/
def takeSign : Text → Bool × Text
  | 43 :: t => (false, t)
  | 45 :: t => (true, t)
  | t => (false, t)

/-! ## Whole numbers -/

namespace Int64

def least : Int := -(pow2 63)

def greatest : Int := pow2 63 - 1

def ofInt? (n : Int) : Option Int64 :=
  if least ≤ n ∧ n ≤ greatest then some (Int64.ofInt n) else none

/-- An optional sign and one or more decimal digits, in the 64-bit range. -/
def ofText? (t : Text) : Option Int64 :=
  let (negative, digits) := takeSign t
  if digits.isEmpty || !digits.all Text.isDigit then none
  else
    let n : Int := Text.numeralUpTo (pow2 64) digits
    ofInt? (if negative then -n else n)

end Int64

/-- Decimal digits alone, below `2 ^ 64`. -/
def UInt64.ofText? (t : Text) : Option UInt64 :=
  if t.isEmpty || !t.all Text.isDigit then none
  else
    let n := Text.numeralUpTo (pow2 64) t
    if n < pow2 64 then some (UInt64.ofNat n) else none

/-! ## Real numbers -/

namespace RealLiteral

def isHexDigit (b : UInt8) : Bool :=
  Text.isDigit b || (97 ≤ Text.lower b && Text.lower b ≤ 102)

def hexValue (b : UInt8) : Nat :=
  if Text.isDigit b then Text.digitValue b else (Text.lower b).toNat - 87

/-- An underscore has to stand between two digits; a base mark counts as one. -/
def underscoresOk (isDigit : UInt8 → Bool) : (afterDigit : Bool) → (afterMark : Bool) → Text → Bool
  | _, afterMark, [] => !afterMark
  | afterDigit, afterMark, b :: t =>
    if isDigit b then underscoresOk isDigit true false t
    else if b = 95 then afterDigit && underscoresOk isDigit false true t
    else !afterMark && underscoresOk isDigit false false t

/-- Exponents stop growing here: what they scale is far out of range. -/
def exponentLimit : Nat := 10000

/-- A sign and digits up to the end of the literal. -/
def exponent? (t : Text) : Option Int :=
  let (negative, digits) := takeSign t
  match digits with
  | [] => none
  | b :: _ =>
    if Text.isDigit b && digits.all (fun b => Text.isDigit b || b == 95) then
      let n := Text.numeralUpTo exponentLimit (digits.filter Text.isDigit)
      some (if negative then -(n : Int) else n)
    else none

/-- A numeral: its digits without the point, how many of them follow the
point, and the exponent if one is written. -/
structure Numeral where
  digits : Text
  places : Nat
  exponent : Option Int

/-- Splits an unsigned numeral whose exponent starts with the letter `mark`. -/
def numeral? (isDigit : UInt8 → Bool) (mark : UInt8) (t : Text) : Option Numeral :=
  let inMantissa := fun b => isDigit b || b == 95 || b == 46
  let mantissa := t.takeWhile inMantissa
  let rest := t.dropWhile inMantissa
  let whole := (mantissa.takeWhile (· != 46)).filter isDigit
  let fraction := (mantissa.dropWhile (· != 46)).drop 1
  if fraction.contains 46 then none
  else
    let fraction := fraction.filter isDigit
    let digits := whole ++ fraction
    if digits.isEmpty then none
    else match rest with
      | [] => some ⟨digits, fraction.length, none⟩
      | b :: e => if Text.lower b = mark then
          (exponent? e).map fun n => ⟨digits, fraction.length, some n⟩
        else none

/-- No double, and no midpoint of two of them, has more significant digits
than this, in base ten or sixteen. -/
def significantLimit : Nat := 800

/-- Significant digits beyond the limit count only as a nonzero rest, and one
digit tells that as well as all of them. -/
def abridge (digits : Text) : Text :=
  if (digits.drop significantLimit).all (· == 48) then digits.take significantLimit
  else digits.take significantLimit ++ [49]

/-- Decimal numerals whose first significant digit is beyond this place are
out of range. -/
def overflowPlace : Int := 310

/-- Decimal numerals whose first significant digit is before this place are
nearest to zero. -/
def underflowPlace : Int := -330

def decimal? (negative : Bool) (t : Text) : Option Float := do
  let n ← numeral? Text.isDigit 101 t
  let digits := n.digits.dropWhile (· == 48)
  let place : Int := digits.length - n.places + n.exponent.getD 0
  if digits.isEmpty || place < underflowPlace then some (Binary64.zero negative)
  else if overflowPlace < place then none
  else
    let digits := abridge digits
    let value := Text.numeralValue digits
    let scale : Int := place - digits.length
    if 0 ≤ scale then Binary64.nearest? negative (value * pow10 scale.toNat) 1
    else Binary64.nearest? negative value (pow10 (-scale).toNat)

/-- What follows the base mark; the exponent, a power of two, is required. -/
def hexadecimal? (negative : Bool) (t : Text) : Option Float := do
  let n ← numeral? isHexDigit 112 t
  let e ← n.exponent
  let digits := n.digits.dropWhile (· == 48)
  let place : Int := 4 * (digits.length - n.places) + e
  let digits := abridge digits
  let value := digits.foldl (fun v b => 16 * v + hexValue b) 0
  let scale : Int := place - 4 * digits.length
  if 0 ≤ scale then Binary64.nearest? negative (value * pow2 scale.toNat) 1
  else Binary64.nearest? negative value (pow2 (-scale).toNat)

def isWord (t : Text) (word : Text) : Bool := t.map Text.lower == word

/-- The sign is not allowed on the indefinite value. -/
def word? (signed negative : Bool) (t : Text) : Option Float :=
  if isWord t "inf" || isWord t "infinity" then some (Binary64.infinity negative)
  else if isWord t "nan" && !signed then some Binary64.nan
  else none

def hasHexMark : Text → Bool
  | 48 :: x :: _ :: _ => Text.lower x = 120
  | _ => false

def spacingOk (t : Text) : Bool :=
  if !t.contains 95 then true
  else if hasHexMark t then underscoresOk isHexDigit true false (t.drop 2)
  else underscoresOk Text.isDigit false false t

/-- The double nearest to what `t` spells. -/
def ofText? (t : Text) : Option Float :=
  let (negative, body) := takeSign t
  let signed := body.length < t.length
  match word? signed negative body with
  | some x => some x
  | none =>
    if !spacingOk body then none
    else if hasHexMark body then hexadecimal? negative (body.drop 2)
    else decimal? negative body

end RealLiteral

end PerfReport
