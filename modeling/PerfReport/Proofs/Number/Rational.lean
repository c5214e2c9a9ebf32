import Mathlib
import PerfReport.Proofs.Number.Conversion
import PerfReport.Proofs.Number.Whole

/-!
# Doubles as fractions

A finite double is a fraction with a power of two below or above the bar. What
is cut off in making it whole is what stands behind the point of that fraction,
whatever its sign.

* `truncated?_eq`: cutting rounds the fraction toward zero;
* `Double.toInt_truncate`: so does the cut to 64 bits, where the result fits;
* `Double.truncates_iff`: what the cut is otherwise;
* `whole?_eq_some_iff`, `Double.forall₂_holds_iff`: a double has the whole number
  that it is as a fraction, and no other.
-/

namespace PerfReport

theorem cast_pow2 (k : ℕ) : ((pow2 k : ℕ) : ℚ) = 2 ^ k := Nat.cast_pow 2 k

theorem cast_pow10 (k : ℕ) : ((pow10 k : ℕ) : ℚ) = 10 ^ k := Nat.cast_pow 10 k

namespace Binary64

/-- The whole number next to a fraction, on the side of zero. -/
def towardZero (q : ℚ) : ℤ := if 0 ≤ q then ⌊q⌋ else ⌈q⌉

/-- The fraction that a finite value is. -/
def Value.rational? : Value → Option ℚ
  | .finite negative m e => some (if negative then -(m * 2 ^ e) else m * 2 ^ e)
  | _ => none

theorem floor_magnitude (m : ℕ) (e : ℤ) :
    ⌊(m * 2 ^ e : ℚ)⌋ = ((if 0 ≤ e then m * pow2 e.toNat else m / pow2 (-e).toNat : ℕ) : ℤ) := by
  split
  · next he =>
    obtain ⟨k, rfl⟩ := Int.eq_ofNat_of_zero_le he
    have hwhole : (m * 2 ^ (k : ℤ) : ℚ) = ((m * pow2 k : ℕ) : ℤ) := by
      rw [Int.cast_natCast, Nat.cast_mul, cast_pow2, zpow_natCast]
    rw [Int.toNat_natCast, hwhole, Int.floor_intCast]
  · next he =>
    obtain ⟨k, rfl⟩ : ∃ k : ℕ, e = -k := ⟨(-e).toNat, by omega⟩
    have hquotient : (m * 2 ^ (-(k : ℤ)) : ℚ) = (m : ℚ) / (pow2 k : ℕ) := by
      rw [zpow_neg, zpow_natCast, cast_pow2, div_eq_mul_inv]
    rw [neg_neg, Int.toNat_natCast, hquotient, Rat.floor_natCast_div_natCast, Int.natCast_ediv]

/-- **Truncation.**  The sign is put back behind the cut. -/
theorem truncated?_eq (v : Value) : v.truncated? = v.rational?.map towardZero := by
  cases v with
  | indefinite => rfl
  | infinite negative => rfl
  | finite negative m e =>
    have hpos : (0 : ℚ) ≤ m * 2 ^ e := by positivity
    simp only [Value.truncated?, Value.rational?, Option.map_some, ← floor_magnitude, towardZero]
    cases negative with
    | false => simp only [Bool.false_eq_true, if_false, if_pos hpos]
    | true =>
      simp only [if_true, Option.some.injEq]
      split
      · next hneg =>
        have hzero : (m * 2 ^ e : ℚ) = 0 := by linarith
        rw [hzero]
        rfl
      · rw [Int.ceil_neg]

theorem rational?_of_denotes {m n : ℕ} {e : ℤ} (h : Denotes m e n) (negative : Bool) :
    (Value.finite negative m e).rational? = some ((if negative then -(n : ℤ) else n : ℤ) : ℚ) := by
  have hn : (m * 2 ^ e : ℚ) = n := by
    rcases h with ⟨he, rfl⟩ | ⟨he, rfl⟩
    · obtain ⟨k, rfl⟩ := Int.eq_ofNat_of_zero_le he
      rw [Int.toNat_natCast, Nat.cast_mul, cast_pow2, zpow_natCast]
    · obtain ⟨k, rfl⟩ : ∃ k : ℕ, e = -k := ⟨(-e).toNat, by omega⟩
      rw [neg_neg, Int.toNat_natCast, Nat.cast_mul, cast_pow2, zpow_neg, zpow_natCast,
        mul_inv_cancel_right₀ (by positivity)]
  cases negative <;> simp [Value.rational?, hn]

/-- A fraction below the bar that is whole leaves no remainder. -/
theorem exists_denotes_of_rational? {negative : Bool} {m : ℕ} {e k : ℤ}
    (h : (Value.finite negative m e).rational? = some (k : ℚ)) : ∃ n, Denotes m e n := by
  rcases le_or_gt 0 e with he | he
  · exact ⟨_, .inl ⟨he, rfl⟩⟩
  · obtain ⟨d, rfl⟩ : ∃ d : ℕ, e = -d := ⟨(-e).toNat, by omega⟩
    have hpow : ((2 : ℚ) ^ d) ≠ 0 := by positivity
    have hk : (m : ℚ) = (k.natAbs * pow2 d : ℕ) := by
      have habs : |(m * 2 ^ (-(d : ℤ)) : ℚ)| = |(k : ℚ)| := by
        cases negative with
        | false => exact congrArg _ (Option.some.inj h)
        | true => rw [← Option.some.inj h, if_pos rfl, abs_neg]
      rw [abs_of_nonneg (by positivity), zpow_neg, zpow_natCast, ← div_eq_mul_inv,
        div_eq_iff hpow] at habs
      rw [habs, Nat.cast_mul, cast_pow2, Nat.cast_natAbs, Int.cast_abs]
    refine ⟨k.natAbs, .inr ⟨he, ?_⟩⟩
    rw [neg_neg, Int.toNat_natCast]
    exact (Nat.cast_injective hk).symm

/-- **Whole values.**  A value has the whole number that it is as a fraction. -/
theorem whole?_eq_some_iff (v : Value) (k : ℤ) :
    v.whole? = some k ↔ v.rational? = some (k : ℚ) := by
  cases v with
  | indefinite => simp [Value.whole?, Value.rational?]
  | infinite negative => simp [Value.whole?, Value.rational?]
  | finite negative m e =>
    constructor
    · intro h
      obtain ⟨n, hn, rfl⟩ := whole?_finite h
      exact rational?_of_denotes hn negative
    · intro h
      obtain ⟨n, hn⟩ := exists_denotes_of_rational? h
      rw [rational?_of_denotes hn, Option.some.injEq, Int.cast_inj] at h
      rw [whole?_of_denotes hn, h]

end Binary64

namespace Double

open Binary64

/-- As a fraction, the double `x` is the whole number `n`. -/
def Holds (x : Float) (n : Int64) : Prop := (Value.ofFloat x).rational? = some (n.toInt : ℚ)

theorem Holds.unique {x : Float} {n n' : Int64} (h : Holds x n) (h' : Holds x n') : n = n' :=
  Int64.toInt_inj.mp (Int.cast_injective (Option.some.inj (h.symm.trans h')))

theorem toWhole?_eq_some_iff (x : Float) (n : Int64) : toWhole? x = some n ↔ Holds x n := by
  rw [Holds, ← whole?_eq_some_iff, toWhole?, Option.bind_eq_some_iff]
  constructor
  · rintro ⟨k, hk, hn⟩
    rw [hk, (Int64.ofInt?_eq_some_iff _ _).mp hn]
  · intro hk
    exact ⟨n.toInt, hk, Int64.ofInt?_toInt n⟩

/-- A record is one of whole numbers if every double of it is one. -/
theorem forall₂_holds_iff (record : List Float) (values : List Int64) :
    record.Forall₂ Holds values ↔ record.map toWhole? = values.map some := by
  induction record generalizing values with
  | nil => cases values <;> simp
  | cons x record ih => cases values <;> simp [ih, toWhole?_eq_some_iff]

theorem ofInt?_eq_some {k : Int} (h : Int64.InRange k) : ∃ n, Int64.ofInt? k = some n := by
  unfold Int64.ofInt?
  exact ⟨_, if_pos h⟩

/-- What fits is cut toward zero. -/
theorem toInt_truncate {bits : UInt64} {q : ℚ}
    (hq : (Value.ofBits bits.toNat).rational? = some q) (h : Int64.InRange (towardZero q)) :
    (truncate bits).toInt = towardZero q := by
  obtain ⟨n, hn⟩ := ofInt?_eq_some h
  rw [truncate, truncated?_eq, hq, Option.map_some, Option.bind_some, hn, Option.getD_some]
  exact (Int64.ofInt?_eq_some_iff _ _).mp hn

/-- The bits of a double, cut toward zero to the whole number `n`; the least
number stands for what does not fit, or has no fraction. -/
structure Truncates (bits : UInt64) (n : Int64) : Prop where
  fits : ∀ q, (Value.ofBits bits.toNat).rational? = some q → Int64.InRange (towardZero q) →
    n.toInt = towardZero q
  beyond : (∀ q, (Value.ofBits bits.toNat).rational? = some q → ¬ Int64.InRange (towardZero q)) →
    n = Int64.minValue

theorem truncate_of_beyond {bits : UInt64}
    (h : ∀ q, (Value.ofBits bits.toNat).rational? = some q → ¬ Int64.InRange (towardZero q)) :
    truncate bits = Int64.minValue := by
  rw [truncate, truncated?_eq]
  cases hq : (Value.ofBits bits.toNat).rational? with
  | none => rfl
  | some q =>
    have hnone : Int64.ofInt? (towardZero q) = none := if_neg (h q hq)
    rw [Option.map_some, Option.bind_some, hnone]
    rfl

theorem truncates_iff (bits : UInt64) (n : Int64) : Truncates bits n ↔ truncate bits = n := by
  by_cases h : ∃ q, (Value.ofBits bits.toNat).rational? = some q ∧ Int64.InRange (towardZero q)
  · obtain ⟨q, hq, hfits⟩ := h
    have hcut := toInt_truncate hq hfits
    constructor
    · intro hn
      exact Int64.toInt_inj.mp (hcut.trans (hn.fits q hq hfits).symm)
    · rintro rfl
      exact ⟨fun _ => toInt_truncate, fun hbeyond => absurd hfits (hbeyond q hq)⟩
  · have hbeyond : ∀ q, (Value.ofBits bits.toNat).rational? = some q →
        ¬ Int64.InRange (towardZero q) := fun q hq hfits => h ⟨q, hq, hfits⟩
    rw [truncate_of_beyond hbeyond]
    constructor
    · intro hn
      exact (hn.beyond hbeyond).symm
    · rintro rfl
      exact ⟨fun q hq hfits => absurd hfits (hbeyond q hq), fun _ => rfl⟩

end Double

end PerfReport
