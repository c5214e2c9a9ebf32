import PerfReport.Number.Power
import PerfReport.Text

/-!
# Double-precision numbers

A finite double is `± significand · 2 ^ exponent` with whole significand; the
other doubles are the infinities and the indefinite value. The nearest double
to a fraction is found in exact arithmetic, a tie going to the even
significand.
-/

namespace PerfReport.Binary64

inductive Value
  | indefinite
  | infinite (negative : Bool)
  | finite (negative : Bool) (significand : Nat) (exponent : Int)
  deriving DecidableEq

/-- What a bit pattern stands for: a sign bit, eleven bits of exponent and
fifty-two of fraction. -/
def Value.ofBits (bits : Nat) : Value :=
  let negative : Bool := pow2 63 ≤ bits
  let exponent : Nat := bits / pow2 52 % pow2 11
  let fraction := bits % pow2 52
  if exponent = 2047 then
    if fraction = 0 then .infinite negative else .indefinite
  else if exponent = 0 then .finite negative fraction (-1074)
  else .finite negative (pow2 52 + fraction) (exponent - 1075)

def Value.ofFloat (x : Float) : Value := .ofBits x.toBits.toNat

/-- The whole number that a value is, if it is one. -/
def Value.whole? : Value → Option Int
  | .finite negative m e =>
    let signed := fun n : Nat => if negative then -(n : Int) else n
    if 0 ≤ e then some (signed (m * pow2 e.toNat))
    else if m % pow2 (-e).toNat = 0 then some (signed (m / pow2 (-e).toNat))
    else none
  | _ => none

/-- A finite value without the part behind its point. -/
def Value.truncated? : Value → Option Int
  | .finite negative m e =>
    let n : Nat := if 0 ≤ e then m * pow2 e.toNat else m / pow2 (-e).toNat
    some (if negative then -(n : Int) else n)
  | _ => none

/-! ## Rounding -/

/-- The whole number nearest to `num / den`, a tie going to the even one. -/
def roundQuotient (num den : Nat) : Nat :=
  let q := num / den
  let r := num % den
  if den < 2 * r then q + 1
  else if 2 * r = den then q + q % 2
  else q

/-- `n · 2 ^ e`, rounded to a whole number. -/
def roundScaled (num den : Nat) (e : Int) : Nat :=
  if 0 ≤ e then roundQuotient (num * pow2 e.toNat) den
  else roundQuotient num (den * pow2 (-e).toNat)

/-- The exponent of the largest power of two that is at most `num / den`. -/
def floorLog2 (num den : Nat) : Int :=
  let d : Int := (num.log2 : Int) - den.log2
  let fits := if 0 ≤ d then den * pow2 d.toNat ≤ num else den ≤ num * pow2 (-d).toNat
  if fits then d else d - 1

/-- Bits of the infinity. -/
def infinityBits : Nat := 2047 * pow2 52

/-- The bits of the double nearest to `num / den`; at or above
`infinityBits` the quotient is out of range. -/
def nearestBits (num den : Nat) : Nat :=
  if num = 0 then 0
  else
    let unit := max (-1074) (floorLog2 num den - 52)
    (unit + 1074).toNat * pow2 52 + roundScaled num den (-unit)

/-- The double nearest to `± num / den`, if that is in range. -/
def nearest? (negative : Bool) (num den : Nat) : Option Float :=
  let bits := nearestBits num den
  if bits < infinityBits then
    some (Float.ofBits (UInt64.ofNat (if negative then pow2 63 + bits else bits)))
  else none

def infinity (negative : Bool) : Float :=
  Float.ofBits (UInt64.ofNat (if negative then pow2 63 + infinityBits else infinityBits))

def zero (negative : Bool) : Float :=
  Float.ofBits (UInt64.ofNat (if negative then pow2 63 else 0))

/-- The indefinite value. -/
def nan : Float := Float.ofBits 0x7FF8000000000000

end PerfReport.Binary64
