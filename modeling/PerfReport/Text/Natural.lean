import PerfReport.Text.Letter

/-!
# Natural order

Names in the order in which people count: runs of digits compare by their
value, and where a letter meets something else the letter comes last, unless a
digit stands before it.
-/

namespace PerfReport.Natural

/-- The value of a run of digits behind `start`, in 64 bits. -/
def runValue (start : Int64) (run : List Char) : Int64 :=
  run.foldl (fun n c => n * 10 + (Int64.ofNat c.toNat - 48)) start

/-- Compares at the first difference of two names. Behind zeros only, a zero
has no weight; `significant` says that other digits stand before it. -/
def differs (afterDigit significant : Bool) (a : Char) (as : List Char) (b : Char)
    (bs : List Char) : Bool :=
  if isLetter a && isLetter b then a < b
  else if isLetter a || isLetter b then (if afterDigit then isLetter a else isLetter b)
  else
    let start : Int64 := if (a == '0' || b == '0') && significant then 1 else 0
    let run := (a :: as).takeWhile isDecimalDigit
    let other := (b :: bs).takeWhile isDecimalDigit
    if runValue start run != runValue start other then
      runValue start run < runValue start other
    else if run.length ≠ other.length then run.length < other.length
    else a < b

/-- The first name comes before the second. -/
def before (afterDigit significant : Bool) : List Char → List Char → Bool
  | a :: as, b :: bs =>
    if a = b then
      let digit := isDecimalDigit a
      before digit (digit && (significant || a != '0')) as bs
    else differs afterDigit significant a as b bs
  | [], b => !b.isEmpty
  | _ :: _, [] => false

/-- A stray byte counts as the replacement character. -/
def letters (t : Text) : List Char :=
  t.glyphs.map fun
    | .char c => c
    | .stray _ => '\ufffd'

/-- The second name does not come before the first. -/
def le (s t : Text) : Bool := !before false false (letters t) (letters s)

end PerfReport.Natural
