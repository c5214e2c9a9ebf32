import PerfReport.Number.Binary64

/-!
# Extrema of doubles

The greater and the lesser of two doubles by a rank on bit patterns. Negative
zero ranks below positive zero. In a maximum the indefinite value ranks above
every number but the positive infinity, in a minimum below every number but
the negative one, so that it is never lost silently.
-/

namespace PerfReport.Extremum

/-- The order of the numbers: `-∞`, negative, `-0`, `0`, positive, `∞`. -/
def order (bits : Nat) : Int :=
  if bits < pow2 63 then bits else -((bits : Int) - pow2 63) - 1

def isIndefinite (bits : Nat) : Bool := Binary64.infinityBits < bits % pow2 63

/-- The rank in a maximum: the indefinite value just below `∞`. -/
def upperRank (bits : Nat) : Int :=
  if isIndefinite bits then 2 * order Binary64.infinityBits - 1 else 2 * order bits

/-- The rank in a minimum: the indefinite value just above `-∞`. -/
def lowerRank (bits : Nat) : Int :=
  if isIndefinite bits then 2 * order (pow2 63 + Binary64.infinityBits) + 1 else 2 * order bits

def greater (x y : Float) : Float :=
  if upperRank x.toBits.toNat ≤ upperRank y.toBits.toNat then y else x

def lesser (x y : Float) : Float :=
  if lowerRank x.toBits.toNat ≤ lowerRank y.toBits.toNat then x else y

end PerfReport.Extremum
