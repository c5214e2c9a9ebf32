/-!
# Text

Input lines, labels, titles and messages are byte strings: a log may hold
bytes that are no character of any encoding, and they have to survive every
layer up to the message that quotes them.
-/

namespace PerfReport

abbrev Text := List UInt8

namespace Text

def ofString (s : String) : Text := s.toByteArray.data.toList

instance : Coe String Text := ⟨ofString⟩

/-- The text as a string of characters, if its bytes spell one. -/
def toString? (t : Text) : Option String := String.fromUTF8? ⟨t.toArray⟩

/-! ## Decimal numerals -/

def digit (d : Nat) : UInt8 := UInt8.ofNat (48 + d)

def isDigit (b : UInt8) : Bool := 48 ≤ b && b ≤ 57

def digitValue (b : UInt8) : Nat := b.toNat - 48

/-- The digits of `n`, most significant first, in front of `tail`. -/
def numeralOnto (n : Nat) (tail : Text) : Text :=
  if n < 10 then digit n :: tail else numeralOnto (n / 10) (digit (n % 10) :: tail)
termination_by n

def ofNat (n : Nat) : Text := numeralOnto n []

def ofInt : Int → Text
  | .ofNat n => ofNat n
  | .negSucc n => 45 :: ofNat (n + 1)

/-- The value of a run of decimal digits. -/
def numeralValue (t : Text) : Nat := t.foldl (fun n b => 10 * n + digitValue b) 0

/-- One digit more, unless the limit is reached. -/
def growUpTo (limit n : Nat) (b : UInt8) : Nat :=
  if n < limit then 10 * n + digitValue b else n

/-- The value of a run of decimal digits that stops growing at `limit`: it is
below the limit exactly if the value of the run is, and is that value then. -/
def numeralUpTo (limit : Nat) (t : Text) : Nat := t.foldl (growUpTo limit) 0

/-! ## Hexadecimal numerals -/

def hexDigit (d : Nat) : UInt8 := if d < 10 then UInt8.ofNat (48 + d) else UInt8.ofNat (87 + d)

/-- The `width` low hexadecimal digits of `n`. -/
def hex : (width : Nat) → (n : Nat) → Text
  | 0, _ => []
  | w + 1, n => hex w (n / 16) ++ [hexDigit (n % 16)]

/-! ## Letters -/

/-- ASCII capitals become small letters; other bytes stay. -/
def lower (b : UInt8) : UInt8 := if 65 ≤ b && b ≤ 90 then b + 32 else b

end Text

end PerfReport
