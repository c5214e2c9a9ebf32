import PerfReport.Number.Arith
import PerfReport.Proofs.Number.Order
import PerfReport.Proofs.Number.Whole

/-!
# Whole numbers as doubles

A double that is a whole number of 64 bits is the double of that number: nothing
is lost on the way through the whole numbers but the sign of zero. The double of
a whole number is finite.

* `nearestBits_exact`: a whole number that a double can hold is nearest to itself;
* `nearestBits_lt`: and no whole number of 64 bits is out of range;
* `ofWhole_of_toWhole?`, `ofWhole_beq`: from the double to the whole number and back;
* `toWhole?_ofWhole`: from the whole number to the double and back, up to `2 ^ 53`;
* `isNaN_ofWhole`, `ofWhole_ne_infinity`: what the double of a whole number is not.
-/

namespace PerfReport

namespace Binary64

/-! ## The nearest double -/

theorem pow2_pos (e : Nat) : 0 < pow2 e := Nat.two_pow_pos e

theorem pow2_lt_pow2 {d e : Nat} (h : d < e) : pow2 d < pow2 e :=
  Nat.pow_lt_pow_right Nat.one_lt_two h

theorem pow2_add (d e : Nat) : pow2 (d + e) = pow2 d * pow2 e := Nat.pow_add 2 d e

theorem floorLog2_one {num : Nat} (h : num ≠ 0) : floorLog2 num 1 = num.log2 := by
  have hlow : pow2 num.log2 ≤ num := Nat.log2_self_le h
  have hone : Nat.log2 1 = 0 := rfl
  simp [floorLog2, hone, hlow]

theorem roundQuotient_mul (q : Nat) {den : Nat} (h : 0 < den) :
    roundQuotient (q * den) den = q := by
  have hq : q * den / den = q := Nat.mul_div_cancel q h
  have hr : q * den % den = 0 := Nat.mul_mod_left q den
  simp only [roundQuotient, hq, hr]
  rw [if_neg (by omega), if_neg (by omega)]

/-- The whole number that a significand and an exponent stand for. -/
def Denotes (m : Nat) (e : Int) (k : Nat) : Prop :=
  (0 ≤ e ∧ k = m * pow2 e.toNat) ∨ (e < 0 ∧ k * pow2 (-e).toNat = m)

theorem log2_mul_pow2 {m : Nat} (h : m ≠ 0) (e : Nat) : (m * pow2 e).log2 = m.log2 + e := by
  have hlow := Nat.log2_self_le h
  have hhigh := @Nat.lt_log2_self m
  rw [Nat.log2_eq_iff (Nat.mul_ne_zero h (pow2_pos e).ne')]
  show _ ≤ m * 2 ^ e ∧ m * 2 ^ e < _
  constructor
  · rw [Nat.pow_add]
    exact Nat.mul_le_mul_right _ hlow
  · rw [Nat.add_right_comm, Nat.pow_add]
    exact Nat.mul_lt_mul_of_pos_right hhigh (Nat.two_pow_pos e)

theorem log2_significand {m : Nat} (hlow : 4503599627370496 ≤ m) (hhigh : m < 9007199254740992) :
    m.log2 = 52 :=
  (Nat.log2_eq_iff (by omega)).mpr ⟨hlow, hhigh⟩

theorem Denotes.ne_zero {m k : Nat} {e : Int} (h : Denotes m e k) (hm : m ≠ 0) : k ≠ 0 := by
  rcases h with ⟨-, rfl⟩ | ⟨-, rfl⟩
  · exact Nat.mul_ne_zero hm (pow2_pos _).ne'
  · exact (Nat.mul_ne_zero_iff.mp hm).1

theorem Denotes.log2_eq {m k : Nat} {e : Int} (h : Denotes m e k) (hm : m ≠ 0) :
    (k.log2 : Int) = m.log2 + e := by
  have hk := h.ne_zero hm
  rcases h with ⟨he, rfl⟩ | ⟨he, rfl⟩
  · rw [log2_mul_pow2 hm]
    omega
  · rw [log2_mul_pow2 hk]
    omega

/-- **Exactness.**  A whole number that a double can hold is nearest to itself. -/
theorem nearestBits_exact {m k : Nat} {e : Int} (h : Denotes m e k)
    (hlow : 4503599627370496 ≤ m) (hhigh : m < 9007199254740992) (hleast : -1074 ≤ e) :
    nearestBits k 1 = (e + 1074).toNat * 4503599627370496 + m := by
  have hm : m ≠ 0 := by omega
  have hlog := h.log2_eq hm
  rw [log2_significand hlow hhigh] at hlog
  have hunit : max (-1074) (floorLog2 k 1 - 52) = e := by
    rw [floorLog2_one (h.ne_zero hm)]
    omega
  have hround : roundScaled k 1 (-e) = m := by
    rcases h with ⟨he, rfl⟩ | ⟨he, rfl⟩
    · rw [roundScaled]
      split
      · obtain rfl : e = 0 := by omega
        simpa [pow2] using roundQuotient_mul m Nat.one_pos
      · rw [Int.neg_neg, Nat.one_mul]
        exact roundQuotient_mul m (pow2_pos _)
    · rw [roundScaled, if_pos (by omega)]
      simpa using roundQuotient_mul (k * pow2 (-e).toNat) Nat.one_pos
  rw [nearestBits, if_neg (h.ne_zero hm)]
  simp only [hunit, hround]
  rfl

/-! ## Doubles that are whole -/

theorem whole?_finite {negative : Bool} {m : Nat} {e k : Int}
    (h : (Value.finite negative m e).whole? = some k) :
    ∃ n, Denotes m e n ∧ k = if negative then -(n : Int) else n := by
  simp only [Value.whole?] at h
  split at h
  · next he =>
    cases h
    exact ⟨_, .inl ⟨he, rfl⟩, rfl⟩
  · next he =>
    split at h
    · next hm =>
      cases h
      exact ⟨_, .inr ⟨by omega, Nat.div_mul_cancel (Nat.dvd_of_mod_eq_zero hm)⟩, rfl⟩
    · cases h

/-- Below the normal range only zero is whole. -/
theorem Denotes.eq_zero_of_subnormal {m k : Nat} (h : Denotes m (-1074) k)
    (hm : m < 4503599627370496) : k = 0 ∧ m = 0 := by
  rcases h with ⟨he, -⟩ | ⟨-, h⟩
  · omega
  · have hbig : pow2 52 < pow2 1074 := pow2_lt_pow2 (by omega)
    have hfull : pow2 52 = 4503599627370496 := rfl
    rcases Nat.eq_zero_or_pos k with rfl | hk
    · exact ⟨rfl, by omega⟩
    · have := Nat.le_mul_of_pos_left (pow2 1074) hk
      have h : k * pow2 1074 = m := h
      omega

theorem ofBits_eq (bits : Nat) : Value.ofBits bits =
    if bits / 4503599627370496 % 2048 = 2047 then
      if bits % 4503599627370496 = 0 then .infinite (9223372036854775808 ≤ bits) else .indefinite
    else if bits / 4503599627370496 % 2048 = 0 then
      .finite (9223372036854775808 ≤ bits) (bits % 4503599627370496) (-1074)
    else .finite (9223372036854775808 ≤ bits) (4503599627370496 + bits % 4503599627370496)
      ((bits / 4503599627370496 % 2048 : Nat) - 1075) := rfl

/-- A double that is a whole number: zero, or a full significand with its
exponent. -/
theorem whole?_ofBits {bits : Nat} {k : Int} (h : (Value.ofBits bits).whole? = some k) :
    (k = 0 ∧ bits % 9223372036854775808 = 0) ∨
      ∃ (m n : Nat) (e : Int), Denotes m e n ∧
        k = (if 9223372036854775808 ≤ bits then -(n : Int) else n) ∧
        4503599627370496 ≤ m ∧ m < 9007199254740992 ∧ -1074 ≤ e ∧ e ≤ 971 ∧
        bits % 9223372036854775808 = (e + 1074).toNat * 4503599627370496 + m := by
  rw [ofBits_eq] at h
  split at h
  · split at h <;> cases h
  · split at h
    · obtain ⟨n, hn, rfl⟩ := whole?_finite h
      obtain ⟨rfl, hm⟩ := hn.eq_zero_of_subnormal (by omega)
      exact .inl ⟨by simp, by omega⟩
    · obtain ⟨n, hn, rfl⟩ := whole?_finite h
      refine .inr ⟨_, n, _, hn, by simp, ?_, ?_, ?_, ?_, ?_⟩ <;> omega

/-! ## Whole numbers that a double can hold -/

theorem whole?_of_denotes {m n : Nat} {e : Int} (h : Denotes m e n) (negative : Bool) :
    (Value.finite negative m e).whole? = some (if negative then -(n : Int) else n) := by
  rcases h with ⟨he, rfl⟩ | ⟨he, rfl⟩
  · simp only [Value.whole?, if_pos he]
  · have hmod : n * pow2 (-e).toNat % pow2 (-e).toNat = 0 := Nat.mul_mod_left ..
    have hdiv : n * pow2 (-e).toNat / pow2 (-e).toNat = n := Nat.mul_div_cancel _ (pow2_pos _)
    simp only [Value.whole?, if_neg (Int.not_le.mpr he), hmod, if_true, hdiv]

/-- A magnitude with a full significand is taken apart again. -/
theorem ofBits_of_full {bits m : Nat} {e : Int} (hlow : 4503599627370496 ≤ m)
    (hhigh : m < 9007199254740992) (hleast : -1074 ≤ e) (hmost : e ≤ 971)
    (hsize : bits % 9223372036854775808 = (e + 1074).toNat * 4503599627370496 + m) :
    Value.ofBits bits = .finite (9223372036854775808 ≤ bits) m e := by
  have hexponent : bits / 4503599627370496 % 2048 = (e + 1075).toNat := by omega
  have hfraction : bits % 4503599627370496 = m - 4503599627370496 := by omega
  have hnumber : (e + 1075).toNat ≠ 2047 := by omega
  have hnormal : (e + 1075).toNat ≠ 0 := by omega
  have hm : 4503599627370496 + (m - 4503599627370496) = m := Nat.add_sub_cancel' hlow
  have he : ((e + 1075).toNat : Int) - 1075 = e := by omega
  simp only [ofBits_eq, hexponent, hfraction, hnumber, hnormal, hm, he, if_false]

/-- A whole number up to `2 ^ 53` has a full significand. -/
theorem exists_denotes {k : Nat} (hk : k ≠ 0) (hmost : k ≤ 9007199254740992) :
    ∃ m e, Denotes m e k ∧ 4503599627370496 ≤ m ∧ m < 9007199254740992 ∧ -52 ≤ e ∧ e ≤ 1 := by
  rcases Nat.eq_or_lt_of_le hmost with rfl | hlt
  · exact ⟨4503599627370496, 1, .inl ⟨by omega, rfl⟩, by omega, by omega, by omega, by omega⟩
  · have hlog : k.log2 < 53 := (Nat.log2_lt hk).mpr hlt
    have hfull : (k * pow2 (52 - k.log2)).log2 = 52 := by
      rw [log2_mul_pow2 hk]
      omega
    obtain ⟨hlow, hhigh⟩ :=
      (Nat.log2_eq_iff (Nat.mul_ne_zero hk (pow2_pos _).ne')).mp hfull
    refine ⟨_, -(52 - k.log2 : Nat), ?_, hlow, hhigh, by omega, by omega⟩
    rcases Nat.eq_zero_or_pos (52 - k.log2) with hzero | hpos
    · left
      rw [hzero]
      exact ⟨by omega, by simp [pow2]⟩
    · right
      refine ⟨by omega, ?_⟩
      rw [Int.neg_neg, Int.toNat_natCast]

/-! ## Range -/

theorem roundQuotient_le (num den : Nat) : roundQuotient num den ≤ num / den + 1 := by
  unfold roundQuotient
  simp only
  split
  · omega
  · split <;> omega

theorem roundQuotient_one (num : Nat) : roundQuotient num 1 = num := by
  simpa using roundQuotient_mul num Nat.one_pos

theorem roundScaled_le {k : Nat} : roundScaled k 1 (52 - k.log2) ≤ 9007199254740992 := by
  have hhigh : k < pow2 (k.log2 + 1) := Nat.lt_log2_self
  have hfull : pow2 53 = 9007199254740992 := rfl
  rw [roundScaled]
  split
  · next hlog =>
    rw [roundQuotient_one]
    have := Nat.mul_lt_mul_of_pos_right hhigh (pow2_pos (52 - (k.log2 : Int)).toNat)
    have hpow : pow2 (k.log2 + 1) * pow2 (52 - (k.log2 : Int)).toNat = pow2 53 := by
      rw [← pow2_add]
      congr 1
      omega
    omega
  · next hlog =>
    rw [Nat.one_mul]
    have hle := roundQuotient_le k (pow2 (-(52 - (k.log2 : Int))).toNat)
    have hpow : pow2 (k.log2 + 1) = pow2 53 * pow2 (-(52 - (k.log2 : Int))).toNat := by
      rw [← pow2_add]
      congr 1
      omega
    have hlt : k / pow2 (-(52 - (k.log2 : Int))).toNat < pow2 53 := by
      rw [Nat.div_lt_iff_lt_mul (pow2_pos _), ← hpow]
      exact hhigh
    omega

/-- Whole numbers of 64 bits are far from the range of doubles. -/
theorem nearestBits_lt {k : Nat} (h : k < 18446744073709551616) :
    nearestBits k 1 < 9218868437227405312 := by
  rw [nearestBits]
  split
  · omega
  · next hk =>
    have hlog : k.log2 < 64 := (Nat.log2_lt hk).mpr h
    have hunit : max (-1074) (floorLog2 k 1 - 52) = k.log2 - 52 := by
      rw [floorLog2_one hk]
      omega
    have hround := @roundScaled_le k
    have hneg : -((k.log2 : Int) - 52) = 52 - k.log2 := by omega
    have hplace : ((k.log2 : Int) - 52 + 1074).toNat ≤ 1085 := by omega
    have hfull : pow2 52 = 4503599627370496 := rfl
    simp only [hunit, hneg, hfull]
    omega

end Binary64

namespace Double

open Binary64

/-- The pattern of a double: the magnitude nearest to the whole number, and the
sign bit above it. -/
theorem ofWhole_eq {n : Int64} {bits : Nat} (h : nearestBits n.toInt.natAbs 1 = bits)
    (hb : bits < 9218868437227405312) : ofWhole n =
      Float.ofBits (UInt64.ofNat (if n.toInt < 0 then 9223372036854775808 + bits else bits)) := by
  have hneg : (n < 0) ↔ n.toInt < 0 := Int64.lt_iff_toInt_lt
  have hroom : bits < infinityBits := hb
  rw [ofWhole, nearest?, h]
  simp only [hroom, if_true, Option.getD_some, decide_eq_true_eq, hneg]
  rfl

/-- **No loss.**  A double that is a whole number is the double of that number,
negative zero apart. -/
theorem ofWhole_of_toWhole? {x : Float} {n : Int64} (h : toWhole? x = some n) :
    ofWhole n = x ∨ n = 0 ∧ x.toBits.toNat = 9223372036854775808 := by
  obtain ⟨k, hk, hn⟩ := Option.bind_eq_some_iff.mp h
  obtain rfl := (Int64.ofInt?_eq_some_iff _ _).mp hn
  have hlt := x.toBits.toNat_lt
  have hself : Float.ofBits (UInt64.ofNat x.toBits.toNat) = x := by
    rw [UInt64.ofNat_toNat, Float.ofBits_toBits]
  rcases whole?_ofBits hk with ⟨hzero, hbits⟩ |
    ⟨m, k, e, hd, hsign, hlow, hhigh, hleast, hmost, hsize⟩
  · by_cases hx : x.toBits.toNat = 0
    · have hbits : nearestBits n.toInt.natAbs 1 = 0 := by
        rw [hzero]
        rfl
      left
      rw [ofWhole_eq hbits (by omega), if_neg (by omega), ← hx, hself]
    · right
      exact ⟨Int64.toInt_inj.mp hzero, by omega⟩
  · have hk := hd.ne_zero (by omega)
    have hbits : nearestBits n.toInt.natAbs 1 = x.toBits.toNat % 9223372036854775808 := by
      have habs : n.toInt.natAbs = k := by
        rw [hsign]
        split <;> omega
      rw [habs, nearestBits_exact hd hlow hhigh hleast, hsize]
    left
    rw [ofWhole_eq hbits (by omega)]
    by_cases hneg : 9223372036854775808 ≤ x.toBits.toNat
    · rw [if_pos hneg] at hsign
      have hpattern : 9223372036854775808 + x.toBits.toNat % 9223372036854775808 =
          x.toBits.toNat := by omega
      rw [if_pos (by omega), hpattern, hself]
    · rw [if_neg hneg] at hsign
      rw [if_neg (by omega), Nat.mod_eq_of_lt (by omega), hself]

section Patterns

open Float.Model Float.Model.UnpackedFloat Extremum

/-- A pattern that is a number is kept as it is. -/
theorem toNat_toBits_ofBits {bits : Nat} (hlt : bits < 18446744073709551616)
    (h : isIndefinite bits = false) : (Float.ofBits (UInt64.ofNat bits)).toBits.toNat = bits := by
  have hbits : (UInt64.ofNat bits).toNat = bits := UInt64.toNat_ofNat_of_lt' hlt
  have hn : ¬ 9218868437227405312 < bits % 9223372036854775808 := by
    rw [← isIndefinite_iff, h]
    exact Bool.false_ne_true
  have hvalid : Format.binary64.Valid (UInt64.ofNat bits).toBitVec := by
    refine ⟨fun he hm => absurd ?_ hm⟩
    have he : _ = 2047 := (toNat_unpackExponent _).symm.trans (congrArg BitVec.toNat he)
    apply BitVec.eq_of_toNat_eq
    rw [toNat_unpackMantissa]
    show _ = 0
    have hword : (UInt64.ofNat bits).toBitVec.toNat = bits := hbits
    omega
  have hkept := Float.ofBits_toBits (.ofModel ⟨UInt64.ofNat bits, hvalid⟩)
  have hsame : (Float.ofModel ⟨UInt64.ofNat bits, hvalid⟩).toBits = UInt64.ofNat bits := rfl
  rw [hsame] at hkept
  rw [hkept, hsame, hbits]

end Patterns

/-- The pattern of the double of a whole number. -/
theorem toNat_toBits_ofWhole (n : Int64) : nearestBits n.toInt.natAbs 1 < 9218868437227405312 ∧
    (ofWhole n).toBits.toNat = if n.toInt < 0 then
      9223372036854775808 + nearestBits n.toInt.natAbs 1 else nearestBits n.toInt.natAbs 1 := by
  have hn : n.toInt.natAbs < 18446744073709551616 := by
    have := n.le_toInt
    have := n.toInt_lt
    omega
  have hlt := nearestBits_lt hn
  generalize hbits : nearestBits n.toInt.natAbs 1 = bits at hlt
  refine ⟨hlt, ?_⟩
  rw [ofWhole_eq hbits hlt]
  apply toNat_toBits_ofBits
  · split <;> omega
  · rw [← Bool.not_eq_true, Extremum.isIndefinite_iff]
    split <;> omega

/-- **Small whole numbers** are kept on the way through doubles. -/
theorem toWhole?_ofWhole {n : Int64} (h : n.toInt.natAbs ≤ 9007199254740992) :
    toWhole? (ofWhole n) = some n := by
  by_cases hzero : n.toInt.natAbs = 0
  · obtain rfl : n = 0 := Int64.toInt_inj.mp (Int.natAbs_eq_zero.mp hzero)
    decide +kernel
  · obtain ⟨m, e, hd, hlow, hhigh, hleast, hmost⟩ := exists_denotes hzero h
    have hbits := nearestBits_exact hd hlow hhigh (by omega)
    obtain ⟨hroom, hpattern⟩ := toNat_toBits_ofWhole n
    rw [hbits] at hroom hpattern
    have hsize : (ofWhole n).toBits.toNat % 9223372036854775808 =
        (e + 1074).toNat * 4503599627370496 + m := by
      rw [hpattern]
      split <;> omega
    have hsign : (if 9223372036854775808 ≤ (ofWhole n).toBits.toNat then
        -(n.toInt.natAbs : Int) else n.toInt.natAbs) = n.toInt := by
      rw [hpattern]
      split <;> split <;> omega
    rw [toWhole?, Value.ofFloat, ofBits_of_full hlow hhigh (by omega) (by omega) hsize,
      whole?_of_denotes hd, Option.bind_some]
    simp only [decide_eq_true_eq]
    rw [hsign, Int64.ofInt?_toInt]

theorem isNaN_ofWhole (n : Int64) : (ofWhole n).isNaN = false := by
  obtain ⟨hlt, h⟩ := toNat_toBits_ofWhole n
  rw [Extremum.isNaN_eq_isIndefinite, ← Bool.not_eq_true, Extremum.isIndefinite_iff, h]
  split <;> omega

/-- So the two are equal as numbers. -/
theorem ofWhole_beq {x : Float} {n : Int64} (h : toWhole? x = some n) :
    (ofWhole n == x) = true := by
  obtain rfl | ⟨rfl, hx⟩ := ofWhole_of_toWhole? h
  · exact Extremum.beq_self (Extremum.isNaN_eq_isIndefinite _ ▸ isNaN_ofWhole n)
  · have hzero : x = zero true := Float.toBits_inj.mp (UInt64.toNat_inj.mp hx)
    rw [hzero]
    rfl

theorem ofWhole_ne_infinity (n : Int64) (negative : Bool) : ofWhole n ≠ infinity negative := by
  obtain ⟨hlt, h⟩ := toNat_toBits_ofWhole n
  intro hn
  rw [hn, Extremum.toBits_infinity] at h
  cases negative <;> simp at h <;> split at h <;> omega

end Double

end PerfReport
