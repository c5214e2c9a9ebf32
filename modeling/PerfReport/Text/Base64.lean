import PerfReport.Text

/-!
# Base64

Bytes as digits of six bits: three bytes make four digits, and equals signs
stand for the digits that the last bytes do not reach. What does not fit one
line is written in lines of equal width.
-/

namespace PerfReport.Base64

/-- The digit for a value below 64. -/
def digit (v : Nat) : UInt8 :=
  if v < 26 then UInt8.ofNat (65 + v)
  else if v < 52 then UInt8.ofNat (71 + v)
  else if v < 62 then UInt8.ofNat (v - 4)
  else if v = 62 then 43
  else 47

def value? (b : UInt8) : Option Nat :=
  let n := b.toNat
  if 65 ≤ n ∧ n ≤ 90 then some (n - 65)
  else if 97 ≤ n ∧ n ≤ 122 then some (n - 71)
  else if 48 ≤ n ∧ n ≤ 57 then some (n + 4)
  else if n = 43 then some 62
  else if n = 47 then some 63
  else none

/-- The number that bytes spell. -/
def join (bytes : List UInt8) : Nat := bytes.foldl (fun n b => 256 * n + b.toNat) 0

/-- The number that digits spell. -/
def join? (digits : Text) : Option Nat :=
  digits.foldlM (fun n b => (value? b).map (64 * n + ·)) 0

def encode : Text → Text
  | a :: b :: c :: t =>
    let n := join [a, b, c]
    digit (n / 262144) :: digit (n / 4096 % 64) :: digit (n / 64 % 64) :: digit (n % 64)
      :: encode t
  | [a, b] =>
    let n := 4 * join [a, b]
    [digit (n / 4096), digit (n / 64 % 64), digit (n % 64), 61]
  | [a] =>
    let n := 16 * join [a]
    [digit (n / 64), digit (n % 64), 61, 61]
  | [] => []

/-- Reads digits. Bits of the last one that belong to no byte are not looked
at. -/
def decode? : Text → Option Text
  | [] => some []
  | [a, b, 61, 61] => do
    let n := (← join? [a, b]) / 16
    return [UInt8.ofNat n]
  | [a, b, c, 61] => do
    let n := (← join? [a, b, c]) / 4
    return [UInt8.ofNat (n / 256), UInt8.ofNat n]
  | a :: b :: c :: d :: t => do
    let n ← join? [a, b, c, d]
    return UInt8.ofNat (n / 65536) :: UInt8.ofNat (n / 256) :: UInt8.ofNat n :: (← decode? t)
  | _ => none

/-! ## Lines -/

def lineWidth : Nat := 70

/-- Digits with a line end after every full line and after the last; the
first goes to this column. -/
def inLines (column : Nat) : Text → Text
  | [] => if column = 0 then [] else [10]
  | b :: t =>
    if column + 1 = lineWidth then b :: 10 :: inLines 0 t else b :: inLines (column + 1) t

/-- The digits of a text, in lines if they are too many for one. -/
def encodeLines (t : Text) : Text :=
  let digits := encode t
  if digits.length < lineWidth then digits else inLines 0 digits

/-- Reads digits that may stand in lines. -/
def decodeLines? (t : Text) : Option Text := decode? (t.filter fun b => b != 10 && b != 13)

end PerfReport.Base64
