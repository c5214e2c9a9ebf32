import PerfReport.Number.Arith

/-!
# Running moments

Count, mean and sum of squared deviations of a column, updated one value at a
time or by joining two parts.
-/

namespace PerfReport

structure Moments (α : Type) where
  count : UInt64
  mean : α
  m2 : α
  deriving DecidableEq

namespace Moments

variable {α : Type} [Arith α]

def fresh : Moments α := ⟨0, Arith.zero, Arith.zero⟩

/-- One more value. The squared deviation grows by the product of the
deviations from the mean before and after it. -/
def update (w : Moments α) (x : α) : Moments α :=
  let count := w.count + 1
  let before := x - w.mean
  let mean := w.mean + before / Arith.ofCount count
  ⟨count, mean, w.m2 + before * (x - mean)⟩

/-- The moments of two parts taken together; an empty part changes nothing. -/
def merge (w other : Moments α) : Moments α :=
  if other.count = 0 then w
  else if w.count = 0 then other
  else
    let count := w.count + other.count
    let delta := other.mean - w.mean
    let ratio := Arith.ofCount other.count / Arith.ofCount count
    { count := count
      mean := w.mean + delta * ratio
      m2 := w.m2 + (other.m2 + delta * delta * Arith.ofCount w.count * ratio) }

/-- Mean squared deviation; zero for fewer than two values. -/
def variance (w : Moments α) : α :=
  if w.count < 2 then Arith.zero else w.m2 / Arith.ofCount w.count

def sampleVariance (w : Moments α) : α :=
  if w.count < 2 then Arith.zero else w.m2 / Arith.ofCount (w.count - 1)

/-- Sample standard deviation. -/
def deviation (w : Moments Float) : Float := w.sampleVariance.sqrt

/-- Deviation relative to the mean. -/
def variation (w : Moments Float) : Float :=
  if w.count < 2 then 0.0 else w.deviation / w.mean

end Moments

end PerfReport
