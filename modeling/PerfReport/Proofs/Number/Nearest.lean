import Mathlib
import PerfReport.Number.Binary64

/-!
# Nearest fractions

Which fraction with a given number below the bar is nearest to a number, and
that rounding a quotient finds it.

* `Nearest.of_half`: what is within half a step is nearest;
* `Nearest.half`, `Nearest.unique`: nothing else is, and only one fraction;
* `nearest_roundQuotient`: a quotient of whole numbers, rounded.
-/

namespace PerfReport

/-- Of all fractions with `d` below the bar, `k / d` is nearest to `q`; if it is
no nearer than another, then `k` is even. -/
structure Nearest (d q : ℚ) (k : ℤ) : Prop where
  closest : ∀ j : ℤ, |q - k / d| ≤ |q - j / d|
  even : ∀ j : ℤ, j ≠ k → |q - j / d| = |q - k / d| → Even k

namespace Nearest

variable {d q : ℚ} {k : ℤ}

theorem apart_le (hd : 0 < d) (q : ℚ) (j k : ℤ) :
    |(j - k : ℚ)| / d ≤ |q - k / d| + |q - j / d| := by
  have hapart : |(j - k : ℚ)| / d = |j / d - k / d| := by
    rw [← sub_div, abs_div, abs_of_pos hd]
  calc |(j - k : ℚ)| / d = |(q - k / d) - (q - j / d)| := by rw [hapart]; congr 1; ring
    _ ≤ |q - k / d| + |q - j / d| := abs_sub _ _

/-- Two fractions are a step apart, and so not both near. -/
theorem step_le (hd : 0 < d) {j : ℤ} (hj : j ≠ k) : 1 / d ≤ |q - k / d| + |q - j / d| := by
  have hone : (1 : ℚ) ≤ |(j - k : ℚ)| := by
    exact_mod_cast Int.one_le_abs (sub_ne_zero.mpr hj)
  exact (div_le_div_of_nonneg_right hone hd.le).trans (apart_le hd q j k)

theorem of_half (hd : 0 < d) (h : |q - k / d| ≤ 1 / d / 2)
    (htie : |q - k / d| = 1 / d / 2 → Even k) : Nearest d q k where
  closest j := by
    by_cases hj : j = k
    · rw [hj]
    · have := step_le (q := q) hd hj
      linarith
  even j hj heq := by
    have := step_le (q := q) hd hj
    exact htie (le_antisymm h (by linarith))

/-- Another step would only lead away if less than half of one was left. -/
theorem half (hd : 0 < d) (h : Nearest d q k) : |q - k / d| ≤ 1 / d / 2 := by
  have hup := h.closest (k + 1)
  have hdown := h.closest (k - 1)
  push_cast at hup hdown
  rw [add_div] at hup
  rw [sub_div] at hdown
  have hstep : 0 < 1 / d := by positivity
  rcases le_total 0 (q - k / d) with hside | hside
  · rw [abs_of_nonneg hside] at hup ⊢
    by_contra hfar
    have : |q - (k / d + 1 / d)| < q - k / d := by
      rw [abs_lt]
      constructor <;> linarith
    linarith
  · rw [abs_of_nonpos hside] at hdown ⊢
    by_contra hfar
    have : |q - (k / d - 1 / d)| < -(q - k / d) := by
      rw [abs_lt]
      constructor <;> linarith
    linarith

/-- Two nearest fractions would be neighbours and both even. -/
theorem unique (hd : 0 < d) (h : Nearest d q k) {j : ℤ} (hj : Nearest d q j) : j = k := by
  by_contra hne
  have heq : |q - j / d| = |q - k / d| := le_antisymm (hj.closest k) (h.closest j)
  have hk := Int.even_iff.mp (h.even j hne heq)
  have hj' := Int.even_iff.mp (hj.even k (Ne.symm hne) heq.symm)
  have htwo : (2 : ℚ) ≤ |(j - k : ℚ)| := by
    have hint : (2 : ℤ) ≤ |j - k| := le_abs.mpr (by omega)
    exact_mod_cast hint
  have hfar : 1 / d + 1 / d ≤ |q - k / d| + |q - j / d| :=
    calc 1 / d + 1 / d = 2 / d := by ring
      _ ≤ |(j - k : ℚ)| / d := div_le_div_of_nonneg_right htwo hd.le
      _ ≤ |q - k / d| + |q - j / d| := apart_le hd q j k
  have hclose := h.half hd
  have hstep : 0 < 1 / d := by positivity
  linarith

/-- A fraction is nearest to itself. -/
theorem self (hd : 0 < d) (k : ℤ) : Nearest d (k / d) k := by
  have hstep : 0 < 1 / d := by positivity
  refine of_half hd ?_ ?_ <;> rw [sub_self, abs_zero]
  · linarith
  · intro htie
    linarith

theorem neg (h : Nearest d q k) : Nearest d (-q) (-k) := by
  have hflip (j : ℤ) : |-q - j / d| = |q - (-j : ℤ) / d| := by
    rw [← abs_neg]
    push_cast
    congr 1
    ring
  constructor
  · intro j
    rw [hflip, hflip, neg_neg]
    exact h.closest (-j)
  · intro j hj heq
    rw [hflip, hflip, neg_neg] at heq
    exact (h.even (-j) (by omega) heq).neg

end Nearest

namespace Binary64

/-- Half a step up or down, and only to an even number if it is as much. -/
theorem roundQuotient_bounds (num : ℕ) {den : ℕ} (hden : 0 < den) :
    2 * (roundQuotient num den * den) ≤ 2 * num + den ∧
      2 * num ≤ 2 * (roundQuotient num den * den) + den ∧
      (2 * (roundQuotient num den * den) = 2 * num + den ∨
        2 * num = 2 * (roundQuotient num den * den) + den → Even (roundQuotient num den)) := by
  have hnum := Nat.div_add_mod' num den
  have hrest := Nat.mod_lt num hden
  rw [roundQuotient]
  generalize num / den = w at hnum ⊢
  generalize num % den = r at hnum hrest ⊢
  split_ifs with hup htie
  · rw [Nat.add_mul]
    refine ⟨by omega, by omega, fun h => by omega⟩
  · rcases Nat.mod_two_eq_zero_or_one w with heven | hodd
    · rw [heven, Nat.add_zero]
      exact ⟨by omega, by omega, fun _ => Nat.even_iff.mpr heven⟩
    · rw [hodd, Nat.add_mul]
      exact ⟨by omega, by omega, fun _ => Nat.even_iff.mpr (by omega)⟩
  · exact ⟨by omega, by omega, fun h => by omega⟩

/-- **Rounding a quotient** finds the nearest whole number of steps. -/
theorem nearest_roundQuotient (num : ℕ) {den : ℕ} (hden : 0 < den) {d : ℚ} (hd : 0 < d) :
    Nearest d (num / den / d) (roundQuotient num den) := by
  obtain ⟨hhigh, hlow, htie⟩ := roundQuotient_bounds num hden
  generalize roundQuotient num den = n at hhigh hlow htie ⊢
  have hpos : (0 : ℚ) < den := Nat.cast_pos.mpr hden
  have hhigh' : (2 * (n * den) : ℚ) ≤ 2 * num + den := by exact_mod_cast hhigh
  have hlow' : (2 * num : ℚ) ≤ 2 * (n * den) + den := by exact_mod_cast hlow
  have hgap : |(num / den / d - (n : ℤ) / d : ℚ)| = |(num - n * den : ℚ)| / den / d := by
    have hcommon : (num / den / d - (n : ℤ) / d : ℚ) = (num - n * den) / den / d := by
      push_cast
      field_simp
    rw [hcommon, abs_div, abs_div, abs_of_pos hpos, abs_of_pos hd]
  have hhalf : 1 / d / 2 = (den / 2 : ℚ) / den / d := by field_simp
  refine Nearest.of_half hd ?_ ?_
  · rw [hgap, hhalf]
    gcongr
    rw [abs_le]
    constructor <;> linarith
  · intro heq
    rw [hgap, hhalf, div_left_inj' hd.ne', div_left_inj' hpos.ne'] at heq
    refine (Int.even_coe_nat n).mpr (htie ?_)
    rcases (abs_eq (by positivity)).mp heq with h | h
    · right
      have : (2 * num : ℚ) = 2 * (n * den) + den := by linarith
      exact_mod_cast this
    · left
      have : (2 * (n * den) : ℚ) = 2 * num + den := by linarith
      exact_mod_cast this

end Binary64

end PerfReport
