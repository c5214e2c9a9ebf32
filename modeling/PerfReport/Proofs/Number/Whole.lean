import PerfReport.Aggregate

/-!
# Sums of whole numbers

A checked sum wraps around first and looks at the sign afterwards. That finds
exactly the sums outside the 64-bit range: `add?_eq_some_iff` and
`add?_eq_none_iff` compare it with the sum of integers.
-/

namespace PerfReport.Int64

/-- The integers that 64 bits can hold. -/
def InRange (n : Int) : Prop := least ≤ n ∧ n ≤ greatest

instance (n : Int) : Decidable (InRange n) := inferInstanceAs (Decidable (_ ∧ _))

theorem least_eq : least = -9223372036854775808 := rfl

theorem greatest_eq : greatest = 9223372036854775807 := rfl

theorem inRange_toInt (a : Int64) : InRange a.toInt := by
  have hl : -9223372036854775808 ≤ a.toInt := a.le_toInt
  have hu : a.toInt < 9223372036854775808 := a.toInt_lt
  simp only [InRange, least_eq, greatest_eq]
  omega

theorem exists_toInt_eq {n : Int} (h : InRange n) : ∃ a : Int64, a.toInt = n := by
  obtain ⟨hl, hu⟩ := h
  rw [least_eq] at hl
  rw [greatest_eq] at hu
  exact ⟨Int64.ofInt n, Int64.toInt_ofInt_of_le hl (by omega)⟩

theorem ofInt?_toInt (a : Int64) : ofInt? a.toInt = some a := by
  have hrange : least ≤ a.toInt ∧ a.toInt ≤ greatest := inRange_toInt a
  rw [ofInt?, if_pos hrange, Int64.ofInt_toInt]

theorem ofInt?_eq_some_iff (k : Int) (n : Int64) : ofInt? k = some n ↔ n.toInt = k := by
  constructor
  · intro h
    rw [ofInt?] at h
    split at h
    · next hk =>
      obtain ⟨m, rfl⟩ := exists_toInt_eq hk
      rw [Int64.ofInt_toInt] at h
      rw [Option.some.inj h]
    · cases h
  · rintro rfl
    exact ofInt?_toInt n

/-- The wrapped sum is the sum of integers, or off by one turn. -/
theorem toInt_add_cases (a b : Int64) :
    ((a + b).toInt = a.toInt + b.toInt ∧ InRange (a.toInt + b.toInt)) ∨
    ((a + b).toInt = a.toInt + b.toInt - 18446744073709551616 ∧ greatest < a.toInt + b.toInt) ∨
    ((a + b).toInt = a.toInt + b.toInt + 18446744073709551616 ∧ a.toInt + b.toInt < least) := by
  have ha := inRange_toInt a
  have hb := inRange_toInt b
  have hs : (a + b).toInt = (a.toInt + b.toInt).bmod 18446744073709551616 := Int64.toInt_add a b
  simp only [InRange, least_eq, greatest_eq] at *
  rw [Int.bmod_def] at hs
  omega

/-- The sign test finds exactly the sums that do not fit. -/
theorem wrapped_iff (a b : Int64) :
    ((0 < b ∧ a + b < a) ∨ (b < 0 ∧ a < a + b)) ↔ ¬ InRange (a.toInt + b.toInt) := by
  have ha := inRange_toInt a
  have hb := inRange_toInt b
  have h := toInt_add_cases a b
  have hz : (0 : Int64).toInt = 0 := rfl
  simp only [Int64.lt_iff_toInt_lt, hz, InRange, least_eq, greatest_eq] at *
  omega

theorem add?_eq (a b : Int64) :
    add? a b = if InRange (a.toInt + b.toInt) then some (a + b) else none := by
  unfold add?
  by_cases h : InRange (a.toInt + b.toInt)
  · rw [if_neg (fun hw => (wrapped_iff a b).mp hw h), if_pos h]
  · rw [if_pos ((wrapped_iff a b).mpr h), if_neg h]

theorem add?_eq_none_iff (a b : Int64) : add? a b = none ↔ ¬ InRange (a.toInt + b.toInt) := by
  simp [add?_eq]

theorem add?_eq_some_iff (a b t : Int64) : add? a b = some t ↔ t.toInt = a.toInt + b.toInt := by
  have ht := inRange_toInt t
  have hc := toInt_add_cases a b
  rw [add?_eq]
  constructor
  · intro h
    split at h
    · next hr =>
      cases h
      simp only [InRange, least_eq, greatest_eq] at *
      omega
    · cases h
  · intro h
    rw [← h] at hc ⊢
    rw [if_pos ht]
    congr 1
    apply Int64.toInt_inj.mp
    simp only [InRange, least_eq, greatest_eq] at *
    omega

end PerfReport.Int64
