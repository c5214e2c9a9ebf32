import PerfReport.Proofs.Number.Nearest
import PerfReport.Proofs.Number.Rational

/-!
# The double of a whole number

A whole number of 64 bits that no double holds lies between two doubles that
are a power of two apart. Every other double is a multiple of that power, or is
smaller than the number by more than the rounding costs. So rounding the number
to a multiple finds the closest of all doubles.

* `Double.Closest`: the double closest to a number, with ties and zero settled;
* `rational?_onGrid`: where doubles can be;
* `closest_of_nearest`: the nearest multiple is closest;
* `Double.closest_ofWhole`: the double of a whole number.
-/

namespace PerfReport

open Binary64

namespace Double

/-- The fraction that a double is, if it is finite. -/
def rational? (x : Float) : Option ℚ := (Value.ofFloat x).rational?

/-- Of all doubles, `x` is closest to `q`; if another is as close, the last bit
of `x` is clear. It is negative, negative zero included, exactly if `q` is. -/
structure Closest (q : ℚ) (x : Float) : Prop where
  finite : ∃ r, rational? x = some r
  closest : ∀ y r s, rational? x = some r → rational? y = some s → |q - r| ≤ |q - s|
  even : ∀ y r s, rational? x = some r → rational? y = some s → s ≠ r →
    |q - s| = |q - r| → x.toBits.toNat % 2 = 0
  sign : 9223372036854775808 ≤ x.toBits.toNat ↔ q < 0

end Double

namespace Binary64

/-! ## Doubles around a number -/

/-- A multiple of a power of two, or a number with fewer digits than a full
significand of such multiples. -/
def OnGrid (unit : ℤ) (s : ℚ) : Prop := (∃ j : ℤ, s = j * 2 ^ unit) ∨ |s| < 2 ^ (52 + unit)

theorem OnGrid.neg {unit : ℤ} {s : ℚ} (h : OnGrid unit s) : OnGrid unit (-s) := by
  rcases h with ⟨j, rfl⟩ | h
  · exact .inl ⟨-j, by push_cast; ring⟩
  · exact .inr (by rwa [abs_neg])

theorem onGrid_magnitude {m : ℕ} (hm : m < 9007199254740992) (e unit : ℤ) :
    OnGrid unit (m * 2 ^ e) := by
  rcases le_or_gt unit e with he | he
  · obtain ⟨k, rfl⟩ : ∃ k : ℕ, e = unit + k := ⟨(e - unit).toNat, by omega⟩
    refine .inl ⟨m * 2 ^ k, ?_⟩
    rw [zpow_add₀ two_ne_zero, zpow_natCast]
    push_cast
    ring
  · right
    have hfull : (m : ℚ) < 2 ^ (53 : ℤ) := by
      have : (m : ℚ) < (9007199254740992 : ℕ) := Nat.cast_lt.mpr hm
      norm_num at this ⊢
      exact this
    rw [abs_of_nonneg (by positivity)]
    calc (m * 2 ^ e : ℚ) < 2 ^ (53 : ℤ) * 2 ^ e := by gcongr
      _ = 2 ^ (53 + e) := (zpow_add₀ two_ne_zero _ _).symm
      _ ≤ 2 ^ (52 + unit) := zpow_le_zpow_right₀ one_le_two (by omega)

/-- Doubles are sparse: at this size they all are on the grid. -/
theorem rational?_onGrid {bits : ℕ} {s : ℚ} (h : (Value.ofBits bits).rational? = some s)
    (unit : ℤ) : OnGrid unit s := by
  obtain ⟨negative, m, e, hv, hm⟩ : ∃ negative m e,
      Value.ofBits bits = .finite negative m e ∧ m < 9007199254740992 := by
    rw [ofBits_eq] at h ⊢
    split at h
    · split at h <;> cases h
    · next hexponent =>
      rw [if_neg hexponent]
      split
      · exact ⟨_, _, _, rfl, by omega⟩
      · exact ⟨_, _, _, rfl, by omega⟩
  rw [hv] at h
  obtain rfl := Option.some.inj h
  have hgrid := onGrid_magnitude hm e unit
  cases negative with
  | false => exact hgrid
  | true => exact hgrid.neg

/-- **The nearest multiple is closest.**  What is not on the grid is below the
number, on the far side of the least multiple with a full significand. -/
theorem closest_of_nearest {unit : ℤ} {q : ℚ} {m : ℤ} (h : Nearest (2 ^ (-unit)) q m)
    (hq : 2 ^ (52 + unit) ≤ q) {s : ℚ} (hs : OnGrid unit s) :
    |q - m * 2 ^ unit| ≤ |q - s| ∧ (s ≠ m * 2 ^ unit → |q - s| = |q - m * 2 ^ unit| → Even m) := by
  have hplace (j : ℤ) : (j / 2 ^ (-unit) : ℚ) = j * 2 ^ unit := by
    rw [zpow_neg, div_inv_eq_mul]
  rcases hs with ⟨j, rfl⟩ | hs
  · rw [← hplace, ← hplace]
    refine ⟨h.closest j, fun hne => h.even j ?_⟩
    rintro rfl
    exact hne rfl
  · have hleast := h.closest (2 ^ 52)
    have hfull : (((2 ^ 52 : ℤ) : ℚ) * 2 ^ unit) = 2 ^ (52 + unit) := by
      rw [zpow_add₀ two_ne_zero]
      norm_num
    rw [hplace, hplace, hfull,
      abs_of_nonneg (by linarith : (0 : ℚ) ≤ q - 2 ^ (52 + unit))] at hleast
    have hfar : q - 2 ^ (52 + unit) < |q - s| := by
      have := le_abs_self (q - s)
      have := le_abs_self s
      linarith
    exact ⟨by linarith, fun _ heq => by linarith⟩

/-! ## Rounding to a full significand -/

/-- A magnitude with a full significand, or with one that has just run over. -/
theorem rational?_of_full {bits m : ℕ} {e : ℤ} (hlow : 4503599627370496 ≤ m)
    (hhigh : m ≤ 9007199254740992) (hleast : -1074 ≤ e) (hmost : e ≤ 970)
    (hsize : bits % 9223372036854775808 = (e + 1074).toNat * 4503599627370496 + m) :
    (Value.ofBits bits).rational? =
      some (if 9223372036854775808 ≤ bits then -(m * 2 ^ e) else m * 2 ^ e : ℚ) := by
  rcases Nat.lt_or_ge m 9007199254740992 with hm | hm
  · rw [ofBits_of_full hlow hm hleast (by omega) hsize]
    simp [Value.rational?]
  · have hm : m = 9007199254740992 := by omega
    have hnext : (e + 1 + 1074).toNat = (e + 1074).toNat + 1 := by omega
    have hcarry : bits % 9223372036854775808 =
        (e + 1 + 1074).toNat * 4503599627370496 + 4503599627370496 := by
      rw [hsize, hm, hnext, Nat.add_one_mul, Nat.add_assoc]
    have hvalue : ((4503599627370496 : ℕ) * 2 ^ (e + 1) : ℚ) = m * 2 ^ e := by
      rw [zpow_add_one₀ two_ne_zero, hm]
      norm_num
      ring
    rw [ofBits_of_full (by omega) (by omega) (by omega) (by omega) hcarry]
    simp only [Value.rational?, hvalue, decide_eq_true_eq]

/-- A whole number is rounded to a multiple of the power of two that leaves it a
full significand. -/
theorem nearest_roundScaled {k : ℕ} (hk : k ≠ 0) :
    Nearest (2 ^ (-((k.log2 : ℤ) - 52))) k (roundScaled k 1 (52 - k.log2)) ∧
      4503599627370496 ≤ roundScaled k 1 (52 - k.log2) := by
  have hlow : pow2 k.log2 ≤ k := Nat.log2_self_le hk
  have hfull : pow2 52 = 4503599627370496 := rfl
  rw [roundScaled]
  split
  · next hlog =>
    obtain ⟨d, hd⟩ : ∃ d : ℕ, (52 - k.log2 : ℤ) = d := ⟨(52 - (k.log2 : ℤ)).toNat, by omega⟩
    have hunit : -((k.log2 : ℤ) - 52) = d := by omega
    rw [roundQuotient_one, hd, hunit, Int.toNat_natCast]
    constructor
    · have hself := Nearest.self (d := 2 ^ (d : ℤ)) (by positivity) ((k * pow2 d : ℕ) : ℤ)
      rwa [Int.cast_natCast, Nat.cast_mul, cast_pow2, zpow_natCast,
        mul_div_cancel_right₀ _ (by positivity)] at hself
    · calc 4503599627370496 = pow2 k.log2 * pow2 d := by
            rw [← hfull, ← pow2_add]
            congr 1
            omega
        _ ≤ k * pow2 d := Nat.mul_le_mul_right _ hlow
  · next hlog =>
    obtain ⟨d, hd⟩ : ∃ d : ℕ, (52 - k.log2 : ℤ) = -d := ⟨((k.log2 : ℤ) - 52).toNat, by omega⟩
    have hunit : -((k.log2 : ℤ) - 52) = -d := by omega
    rw [Nat.one_mul, hd, hunit, neg_neg, Int.toNat_natCast]
    constructor
    · have hround := nearest_roundQuotient k (pow2_pos d) (d := 2 ^ (-(d : ℤ))) (by positivity)
      rwa [cast_pow2, zpow_neg, zpow_natCast, div_inv_eq_mul,
        div_mul_cancel₀ _ (by positivity), ← zpow_natCast, ← zpow_neg] at hround
    · have hquotient : 4503599627370496 ≤ k / pow2 d := by
        rw [Nat.le_div_iff_mul_le (pow2_pos d)]
        calc 4503599627370496 * pow2 d = pow2 k.log2 := by
              rw [← hfull, ← pow2_add]
              congr 1
              omega
          _ ≤ k := hlow
      refine hquotient.trans ?_
      simp only [roundQuotient]
      split <;> [omega; split <;> omega]

end Binary64

namespace Double

/-- Of doubles it is enough to look at those on the grid. -/
theorem Closest.of_onGrid (unit : ℤ) {q r : ℚ} {x : Float} (hr : rational? x = some r)
    (hsign : 9223372036854775808 ≤ x.toBits.toNat ↔ q < 0)
    (h : ∀ s, OnGrid unit s → |q - r| ≤ |q - s| ∧
      (s ≠ r → |q - s| = |q - r| → x.toBits.toNat % 2 = 0)) : Closest q x where
  finite := ⟨r, hr⟩
  closest y r' s hr' hs := by
    obtain rfl := Option.some.inj (hr.symm.trans hr')
    exact (h s (rational?_onGrid hs unit)).1
  even y r' s hr' hs := by
    obtain rfl := Option.some.inj (hr.symm.trans hr')
    exact (h s (rational?_onGrid hs unit)).2
  sign := hsign

/-- The double of a whole number is a multiple of a power of two, the nearest
one, and its pattern ends as the multiple does. -/
theorem exists_multiple {n : Int64} (hn : n ≠ 0) : ∃ (unit : ℤ) (m : ℕ),
    Nearest (2 ^ (-unit)) n.toInt.natAbs m ∧ (2 ^ (52 + unit) : ℚ) ≤ n.toInt.natAbs ∧
    rational? (ofWhole n) =
      some (if n.toInt < 0 then -(m * 2 ^ unit) else m * 2 ^ unit : ℚ) ∧
    ((ofWhole n).toBits.toNat % 2 = m % 2) := by
  have hk : n.toInt.natAbs ≠ 0 := fun h => hn (Int64.toInt_inj.mp (Int.natAbs_eq_zero.mp h))
  have hrange : n.toInt.natAbs < 18446744073709551616 := by
    have := n.le_toInt
    have := n.toInt_lt
    omega
  obtain ⟨hlt, hbits⟩ := toNat_toBits_ofWhole n
  generalize n.toInt.natAbs = k at hk hrange hlt hbits
  have hlog : k.log2 < 64 := (Nat.log2_lt hk).mpr hrange
  obtain ⟨hnear, hlow⟩ := nearest_roundScaled hk
  have hhigh := @roundScaled_le k
  generalize hm : roundScaled k 1 (52 - k.log2) = m at hnear hlow hhigh
  have hmagnitude : nearestBits k 1 = ((k.log2 : ℤ) - 52 + 1074).toNat * 4503599627370496 + m := by
    have hunit : max (-1074) (floorLog2 k 1 - 52) = k.log2 - 52 := by
      rw [floorLog2_one hk]
      omega
    rw [nearestBits, if_neg hk]
    simp only [hunit, neg_sub, hm]
    rfl
  refine ⟨k.log2 - 52, m, hnear, ?_, ?_, ?_⟩
  · have hself : ((2 ^ k.log2 : ℕ) : ℚ) ≤ k := Nat.cast_le.mpr (Nat.log2_self_le hk)
    rw [add_sub_cancel, zpow_natCast]
    exact_mod_cast hself
  · have hsize : (ofWhole n).toBits.toNat % 9223372036854775808 =
        ((k.log2 : ℤ) - 52 + 1074).toNat * 4503599627370496 + m := by
      rw [hbits]
      split <;> omega
    have hneg : 9223372036854775808 ≤ (ofWhole n).toBits.toNat ↔ n.toInt < 0 := by
      rw [hbits]
      split <;> omega
    rw [rational?, Value.ofFloat, rational?_of_full hlow hhigh (by omega) (by omega) hsize]
    simp only [hneg]
  · rw [hbits]
    split <;> omega

/-- **Conversion.**  The double of a whole number is the closest of all. -/
theorem closest_ofWhole (n : Int64) : Closest n.toInt (ofWhole n) := by
  have hsign : 9223372036854775808 ≤ (ofWhole n).toBits.toNat ↔ (n.toInt : ℚ) < 0 := by
    obtain ⟨hlt, hbits⟩ := toNat_toBits_ofWhole n
    rw [Int.cast_lt_zero, hbits]
    split <;> omega
  by_cases hn : n = 0
  · subst hn
    have hzero : rational? (ofWhole 0) = some ((0 : Int64).toInt : ℚ) :=
      (toWhole?_eq_some_iff _ _).mp (by decide +kernel)
    refine Closest.of_onGrid 0 hzero hsign fun s _ => ⟨?_, fun _ _ => rfl⟩
    rw [sub_self, abs_zero]
    exact abs_nonneg _
  · obtain ⟨unit, m, hnear, hsize, hvalue, hparity⟩ := exists_multiple hn
    have hlast (h : Even (m : ℤ)) : (ofWhole n).toBits.toNat % 2 = 0 := by
      rw [hparity]
      exact Nat.even_iff.mp ((Int.even_coe_nat m).mp h)
    refine Closest.of_onGrid unit hvalue hsign fun s hs => ?_
    by_cases hneg : n.toInt < 0
    · have hq : (n.toInt : ℚ) = -(n.toInt.natAbs : ℚ) := by
        rw [Nat.cast_natAbs, abs_of_neg hneg, Int.cast_neg, neg_neg]
      obtain ⟨hclosest, heven⟩ := closest_of_nearest hnear hsize hs.neg
      have hflip (a : ℚ) : |-(n.toInt.natAbs : ℚ) - a| = |(n.toInt.natAbs : ℚ) - -a| := by
        rw [← abs_neg]
        congr 1
        ring
      rw [if_pos hneg, hq, hflip, hflip, neg_neg]
      refine ⟨hclosest, fun hne heq => hlast (heven ?_ heq)⟩
      intro h
      exact hne (neg_eq_iff_eq_neg.mp h)
    · have hq : (n.toInt : ℚ) = n.toInt.natAbs := by
        rw [Nat.cast_natAbs, abs_of_nonneg (Int.not_lt.mp hneg)]
      obtain ⟨hclosest, heven⟩ := closest_of_nearest hnear hsize hs
      rw [if_neg hneg, hq]
      exact ⟨hclosest, fun hne heq => hlast (heven hne heq)⟩

end Double

end PerfReport
