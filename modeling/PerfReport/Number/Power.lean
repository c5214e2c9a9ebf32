/-!
# Powers

The scales of binary and decimal numbers, and the bounds of 64-bit words.
-/

namespace PerfReport

def pow2 (e : Nat) : Nat := Nat.pow 2 e

def pow10 (e : Nat) : Nat := Nat.pow 10 e

end PerfReport
