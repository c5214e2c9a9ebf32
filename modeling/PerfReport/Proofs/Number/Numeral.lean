import PerfReport.Proofs.Number.Whole

/-!
# Numerals read back

The digits of a number are digits, and reading them gives the number. A number
below the limit never stops growing on the way, since every part of a numeral
spells a smaller number.

* `UInt64.ofText?_ofNat`: ids read back;
* `Int64.ofText?_ofInt`: so do whole numbers, of either sign.
-/

namespace PerfReport

namespace Text

theorem toNat_digit {d : Nat} (h : d < 10) : (digit d).toNat = 48 + d := by
  rw [digit, UInt8.toNat_ofNat']
  omega

theorem digitValue_digit {d : Nat} (h : d < 10) : digitValue (digit d) = d := by
  rw [digitValue, toNat_digit h]
  omega

theorem isDigit_digit {d : Nat} (h : d < 10) : isDigit (digit d) = true := by
  have hd := toNat_digit h
  simp only [isDigit, Bool.and_eq_true, decide_eq_true_eq, UInt8.le_iff_toNat_le, hd]
  refine ⟨?_, ?_⟩
  · exact Nat.le_add_right 48 d
  · show 48 + d ≤ 57
    omega

theorem isDigit_of_mem_numeralOnto {n : Nat} {tail : Text}
    (ht : ∀ b ∈ tail, isDigit b = true) : ∀ b ∈ numeralOnto n tail, isDigit b = true := by
  fun_induction numeralOnto n tail with
  | case1 n tail hn => exact List.forall_mem_cons.mpr ⟨isDigit_digit hn, ht⟩
  | case2 n tail hn ih =>
    exact ih (List.forall_mem_cons.mpr ⟨isDigit_digit (Nat.mod_lt n (by decide)), ht⟩)

theorem numeralOnto_ne_nil (n : Nat) (tail : Text) : numeralOnto n tail ≠ [] := by
  fun_induction numeralOnto n tail with
  | case1 n tail hn => exact List.cons_ne_nil _ _
  | case2 n tail hn ih => exact ih

/-- The value grows to `n` and goes on from there. -/
theorem foldl_growUpTo_numeralOnto {limit n : Nat} (hn : n < limit) (tail : Text) :
    (numeralOnto n tail).foldl (growUpTo limit) 0 = tail.foldl (growUpTo limit) n := by
  fun_induction numeralOnto n tail with
  | case1 n tail h =>
    have hlimit : 0 < limit := Nat.zero_lt_of_lt hn
    rw [List.foldl_cons, growUpTo, if_pos hlimit, digitValue_digit h, Nat.mul_zero, Nat.zero_add]
  | case2 n tail h ih =>
    have hfirst : n / 10 < limit := Nat.lt_of_le_of_lt (Nat.div_le_self n 10) hn
    have hgrow : growUpTo limit (n / 10) (digit (n % 10)) = n := by
      rw [growUpTo, if_pos hfirst, digitValue_digit (Nat.mod_lt n (by decide))]
      omega
    rw [ih hfirst, List.foldl_cons, hgrow]

theorem numeralUpTo_ofNat {limit n : Nat} (hn : n < limit) : numeralUpTo limit (ofNat n) = n :=
  foldl_growUpTo_numeralOnto hn []

/-- Growing up to a limit differs from growing only beyond it. -/
theorem foldl_growUpTo_cases (limit : Nat) (t : Text) {n m : Nat}
    (h : n = m ∧ m < limit ∨ limit ≤ n ∧ limit ≤ m) :
    (t.foldl (growUpTo limit) n = t.foldl (fun n b => 10 * n + digitValue b) m ∧
      t.foldl (fun n b => 10 * n + digitValue b) m < limit) ∨
    (limit ≤ t.foldl (growUpTo limit) n ∧
      limit ≤ t.foldl (fun n b => 10 * n + digitValue b) m) := by
  induction t generalizing n m with
  | nil => exact h
  | cons b t ih =>
    refine ih ?_
    dsimp only [growUpTo]
    split <;> omega

theorem numeralUpTo_cases (limit : Nat) (t : Text) :
    (numeralUpTo limit t = numeralValue t ∧ numeralValue t < limit) ∨
      (limit ≤ numeralUpTo limit t ∧ limit ≤ numeralValue t) :=
  foldl_growUpTo_cases limit t (by omega)

/-- The limit above a number makes no difference to its numeral. -/
theorem numeralValue_ofNat (n : Nat) : numeralValue (ofNat n) = n := by
  have hbelow := numeralUpTo_ofNat (Nat.lt_add_one n)
  rcases numeralUpTo_cases (n + 1) (ofNat n) with ⟨h, -⟩ | ⟨h, -⟩ <;> omega

theorem foldl_value (n : Nat) (t : Text) : t.foldl (fun n b => 10 * n + digitValue b) n =
    n * pow10 t.length + t.foldl (fun n b => 10 * n + digitValue b) 0 := by
  induction t generalizing n with
  | nil => exact (Nat.mul_one n).symm
  | cons b t ih =>
    have hpow : pow10 (t.length + 1) = pow10 t.length * 10 := rfl
    rw [List.foldl_cons, List.foldl_cons, ih (10 * n + digitValue b), ih (10 * 0 + digitValue b),
      List.length_cons, hpow]
    grind

/-- The digits in front weigh as much as there are digits behind them. -/
theorem numeralValue_append (t u : Text) :
    numeralValue (t ++ u) = numeralValue t * pow10 u.length + numeralValue u := by
  rw [numeralValue, List.foldl_append, foldl_value]
  rfl

theorem numeralValue_zeros (k : Nat) : numeralValue (List.replicate k 48) = 0 := by
  induction k with
  | zero => rfl
  | succ k ih => exact ih

theorem isDigit_of_mem_ofNat {n : Nat} {b : UInt8} (hb : b ∈ ofNat n) : isDigit b = true := by
  have htail : ∀ b ∈ ([] : Text), isDigit b = true := nofun
  exact isDigit_of_mem_numeralOnto htail b hb

theorem ofNat_ne_nil (n : Nat) : ofNat n ≠ [] := numeralOnto_ne_nil n []

@[simp] theorem isEmpty_ofNat (n : Nat) : (ofNat n).isEmpty = false := by
  simp [ofNat_ne_nil]

@[simp] theorem all_isDigit_ofNat (n : Nat) : (ofNat n).all isDigit = true :=
  List.all_eq_true.mpr fun _ hb => isDigit_of_mem_ofNat hb

/-! ## Signed numerals -/

/-- A minus sign or a digit. -/
def isNumeralByte (b : UInt8) : Bool := b == 45 || isDigit b

theorem isNumeralByte_of_isDigit {b : UInt8} (h : isDigit b = true) : isNumeralByte b = true := by
  rw [isNumeralByte, h, Bool.or_true]

theorem isNumeralByte_of_mem_ofInt {n : Int} {b : UInt8} (hb : b ∈ ofInt n) :
    isNumeralByte b = true := by
  cases n with
  | ofNat n => exact isNumeralByte_of_isDigit (isDigit_of_mem_ofNat hb)
  | negSucc n =>
    rcases List.mem_cons.mp hb with hsign | hdigit
    · rw [hsign]
      rfl
    · exact isNumeralByte_of_isDigit (isDigit_of_mem_ofNat hdigit)

theorem ofInt_ne_nil (n : Int) : ofInt n ≠ [] := by
  cases n with
  | ofNat n => exact ofNat_ne_nil n
  | negSucc n => exact List.cons_ne_nil _ _

/-- Digits stand behind no sign. -/
theorem takeSign_digits {digits : Text} (h : ∀ b ∈ digits, isDigit b = true) :
    takeSign digits = (false, digits) := by
  unfold takeSign
  split
  · exact absurd (h 43 List.mem_cons_self) (by decide)
  · exact absurd (h 45 List.mem_cons_self) (by decide)
  · rfl

theorem takeSign_ofNat (n : Nat) : takeSign (ofNat n) = (false, ofNat n) :=
  takeSign_digits fun _ => isDigit_of_mem_ofNat

end Text

/-- **Ids read back.** -/
theorem UInt64.ofText?_ofNat (id : UInt64) : UInt64.ofText? (Text.ofNat id.toNat) = some id := by
  have hlimit : id.toNat < pow2 64 := id.toNat_lt
  simp [ofText?, Text.numeralUpTo_ofNat hlimit, hlimit]

namespace Int64

/-- A numeral behind its sign spells a number that is tested for its range. -/
theorem ofText?_of_takeSign {t : Text} {negative : Bool} {n : Nat}
    (ht : takeSign t = (negative, Text.ofNat n)) (hn : n < pow2 64) :
    ofText? t = ofInt? (if negative then -n else n) := by
  simp [ofText?, ht, Text.numeralUpTo_ofNat hn]

/-- **Whole numbers read back.** -/
theorem ofText?_ofInt (n : Int64) : ofText? (Text.ofInt n.toInt) = some n := by
  obtain ⟨hl, hu⟩ := inRange_toInt n
  rw [least_eq] at hl
  rw [greatest_eq] at hu
  have hlimit : pow2 64 = 18446744073709551616 := rfl
  have hself := ofInt?_toInt n
  cases hn : n.toInt with
  | ofNat k =>
    rw [hn] at hself
    have hk : n.toInt = k := hn
    rw [Text.ofInt, ofText?_of_takeSign (Text.takeSign_ofNat k) (by omega)]
    exact hself
  | negSucc k =>
    rw [hn] at hself
    rw [Text.ofInt, ofText?_of_takeSign (n := k + 1) rfl (by omega)]
    exact hself

end Int64

end PerfReport
