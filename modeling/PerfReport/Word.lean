import PerfReport.Text

/-!
# Words as bytes

Numbers written with a fixed number of bytes, lowest byte first or highest
byte first.
-/

namespace PerfReport.Word

/-- The `width` low bytes of `n`, lowest first. -/
def little : (width : Nat) → (n : Nat) → Text
  | 0, _ => []
  | w + 1, n => UInt8.ofNat (n % 256) :: little w (n / 256)

def littleValue : Text → Nat
  | [] => 0
  | b :: t => b.toNat + 256 * littleValue t

/-- The `width` low bytes of `n`, highest first. -/
def big (width n : Nat) : Text := (little width n).reverse

def bigValue (t : Text) : Nat := littleValue t.reverse

end PerfReport.Word
