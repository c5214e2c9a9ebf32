import PerfReport.Number.Fixed

/-!
# Shortest numerals

The fewest decimal digits that read back as the same double, and of those the
ones nearest to it, a tie going to the even digit. The reals that read back as
`m · 2 ^ e` form an interval around it, with its ends when `m` is even; for one
digit, two digits and so on the two neighbours of the value on that decimal grid
are tried.
-/

namespace PerfReport.Shortest

/-- `0.d₁d₂… · 10 ^ point`. -/
structure Decimal where
  digits : Text
  point : Int
  deriving DecidableEq

/-- The reals that round to a double, over the denominator `den`. -/
structure Interval where
  low : Nat
  value : Nat
  high : Nat
  den : Nat
  closed : Bool

/-- Neighbouring doubles lie half as far below a power of two as above it. -/
def interval (significand : Nat) (exponent : Int) : Interval :=
  let atPower := significand = pow2 52 ∧ -1074 < exponent
  let unit := if 0 ≤ exponent then pow2 exponent.toNat else 1
  let den := if 0 ≤ exponent then 4 else 4 * pow2 (-exponent).toNat
  { low := (4 * significand - (if atPower then 1 else 2)) * unit
    value := 4 * significand * unit
    high := (4 * significand + 2) * unit
    den := den
    closed := significand % 2 = 0 }

/-- `n · 10 ^ scale` lies in the interval. -/
def Interval.holds (i : Interval) (n : Nat) (scale : Int) : Bool :=
  let up := if 0 ≤ scale then n * pow10 scale.toNat * i.den else n * i.den
  let grid := if 0 ≤ scale then 1 else pow10 (-scale).toNat
  if i.closed then i.low * grid ≤ up && up ≤ i.high * grid
  else i.low * grid < up && up < i.high * grid

/-- The value on the grid of `10 ^ scale`: the whole part and whether the next
grid point is nearer, or as near and even. -/
def Interval.onGrid (i : Interval) (scale : Int) : Nat × Bool :=
  let num := if 0 ≤ scale then i.value else i.value * pow10 (-scale).toNat
  let den := if 0 ≤ scale then i.den * pow10 scale.toNat else i.den
  (num / den, num / den < Binary64.roundQuotient num den)

/-- The better of the two neighbours on the grid, if one reads back. -/
def Interval.pick? (i : Interval) (scale : Int) : Option Nat :=
  let (n, upNearer) := i.onGrid scale
  match i.holds n scale, i.holds (n + 1) scale with
  | true, true => some (if upNearer then n + 1 else n)
  | true, false => some n
  | false, true => some (n + 1)
  | false, false => none

/-- Tries finer and finer grids. -/
def Interval.search (i : Interval) : (fuel : Nat) → (scale : Int) → Nat × Int
  | 0, scale => ((i.onGrid scale).1, scale)
  | fuel + 1, scale =>
    match i.pick? scale with
    | some n => (n, scale)
    | none => i.search fuel (scale - 1)

def dropTrailingZeros (t : Text) : Text := (t.reverse.dropWhile (· == 48)).reverse

/-- The place of the first significant digit of `num / den`. -/
def firstPlace (num den : Nat) : Int :=
  let guess : Int := ((Text.ofNat num).length : Int) - (Text.ofNat den).length
  let fits := if 0 ≤ guess then den * pow10 guess.toNat ≤ num else den ≤ num * pow10 (-guess).toNat
  if fits then guess else guess - 1

/-- The shortest decimal of `significand · 2 ^ exponent`; zero has no digit.
Seventeen digits always suffice. -/
def decimal (significand : Nat) (exponent : Int) : Decimal :=
  if significand = 0 then ⟨[], 0⟩
  else
    let i := interval significand exponent
    let (n, scale) := i.search 20 (firstPlace i.value i.den)
    let numeral := Text.ofNat n
    ⟨dropTrailingZeros numeral, numeral.length + scale⟩

/-! ## Positional and scientific notation -/

def zeros (n : Int) : Text := List.replicate n.toNat 48

def positional (d : Decimal) : Text :=
  let n : Int := d.digits.length
  if d.digits.isEmpty then [48]
  else if d.point ≤ 0 then [48, 46] ++ zeros (-d.point) ++ d.digits
  else if n ≤ d.point then d.digits ++ zeros (d.point - n)
  else d.digits.take d.point.toNat ++ 46 :: d.digits.drop d.point.toNat

/-- The exponent has a sign and at least two digits. -/
def exponentMark (e : Int) : Text :=
  let digits := Text.ofNat e.natAbs
  [101, if e < 0 then 45 else 43] ++ List.replicate (2 - digits.length) 48 ++ digits

def scientific (d : Decimal) : Text :=
  let mantissa := match d.digits with
    | [] => [48]
    | [a] => [a]
    | a :: rest => a :: 46 :: rest
  mantissa ++ exponentMark (if d.digits.isEmpty then 0 else d.point - 1)

/-- Numbers from `10 ^ -4` up to, and without, `10 ^ 6` are written positionally. -/
def general (d : Decimal) : Text :=
  let e := if d.digits.isEmpty then 0 else d.point - 1
  if e < -4 || 6 ≤ e then scientific d else positional d

def writeWith (style : Decimal → Text) (x : Float) : Text :=
  match Binary64.Value.ofFloat x with
  | .indefinite => Fixed.indefiniteWord
  | .infinite negative => Fixed.infiniteWord negative
  | .finite negative m e => Fixed.signMark negative ++ style (decimal m e)

/-- Digits around a point, however many zeros that takes. -/
def writePositional (x : Float) : Text := writeWith positional x

def writeGeneral (x : Float) : Text := writeWith general x

end PerfReport.Shortest
