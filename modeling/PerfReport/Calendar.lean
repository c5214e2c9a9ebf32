import PerfReport.Text

/-!
# Calendar

Moments in universal time, written as a day of the proleptic Gregorian
calendar and a time of day.
-/

namespace PerfReport.Calendar

structure Day where
  year : Int
  month : Nat
  day : Nat

/-- Days in four hundred years, after which the calendar repeats. -/
def cycle : Int := 146097

/-- The day that is `days` after the first of January 1970. Years start in
March here, so that the leap day is their last. -/
def Day.ofEpoch (days : Int) : Day :=
  let shifted := days + 719468
  let era := shifted / cycle
  let inEra := (shifted % cycle).toNat
  let yearOfEra := (inEra - inEra / 1460 + inEra / 36524 - inEra / 146096) / 365
  let inYear := inEra - (365 * yearOfEra + yearOfEra / 4 - yearOfEra / 100)
  let fromMarch := (5 * inYear + 2) / 153
  let day := inYear - (153 * fromMarch + 2) / 5 + 1
  let month := if fromMarch < 10 then fromMarch + 3 else fromMarch - 9
  let year := era * 400 + yearOfEra + (if month ≤ 2 then 1 else 0)
  ⟨year, month, day⟩

/-- Decimal digits with zeros in front up to a width. -/
def padded (width n : Nat) : Text :=
  let digits := Text.ofNat n
  List.replicate (width - digits.length) 48 ++ digits

/-- Writes a moment, given in nanoseconds since the start of 1970, to the
second. -/
def write (nanoseconds : Int64) : Text :=
  let seconds := nanoseconds.toInt / 1000000000
  let d := Day.ofEpoch (seconds / 86400)
  let inDay := (seconds % 86400).toNat
  padded 4 d.year.toNat ++ "-" ++ padded 2 d.month ++ "-" ++ padded 2 d.day ++ " "
    ++ padded 2 (inDay / 3600) ++ ":" ++ padded 2 (inDay / 60 % 60) ++ ":" ++ padded 2 (inDay % 60)

end PerfReport.Calendar
