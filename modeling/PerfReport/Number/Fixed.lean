import PerfReport.Number.Binary64

/-!
# Fixed-point numerals

A double written with a given number of decimal places: the nearest multiple
of that place to its exact binary value, a tie going to the even last digit.
The sign of a number that rounds to zero is kept.
-/

namespace PerfReport.Fixed

def infiniteWord (negative : Bool) : Text := if negative then "-Inf" else "+Inf"

def indefiniteWord : Text := "NaN"

def signMark (negative : Bool) : Text := if negative then [45] else []

/-- `n` with a point before its last `places` digits. -/
def withPoint (places n : Nat) : Text :=
  let digits := Text.ofNat n
  let digits := List.replicate (places + 1 - digits.length) 48 ++ digits
  let whole := digits.take (digits.length - places)
  if places = 0 then whole else whole ++ 46 :: digits.drop (digits.length - places)

/-- A double has at most this many binary, hence decimal, places. -/
def exactPlaces : Nat := 1074

/-- `significand · 2 ^ exponent` with `places` decimals. -/
def magnitude (places significand : Nat) (exponent : Int) : Text :=
  let shown := min places exactPlaces
  let scaled := significand * pow10 shown
  let n := if 0 ≤ exponent then scaled * pow2 exponent.toNat
    else Binary64.roundQuotient scaled (pow2 (-exponent).toNat)
  withPoint shown n ++ List.replicate (places - shown) 48

def write (places : Nat) (x : Float) : Text :=
  match Binary64.Value.ofFloat x with
  | .indefinite => indefiniteWord
  | .infinite negative => infiniteWord negative
  | .finite negative m e => signMark negative ++ magnitude places m e

end PerfReport.Fixed
