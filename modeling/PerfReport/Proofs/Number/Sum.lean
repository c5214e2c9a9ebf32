import PerfReport.Number.Arith
import PerfReport.Proofs.Number.Order

/-!
# Sums with zero

Adding positive zero changes no double but negative zero, and a sum is negative
zero only if both of its terms are. A sum of two finite doubles that are not zero
is computed exactly before it is rounded, so that rounding never makes it zero.

* `fits_normalize`: what a sum is rounded to;
* `zero_neutral`: positive zero on either side;
* `add_eq_negativeZero`: where negative zero comes from.
-/

namespace PerfReport.Double

open Float.Model Float.Model.UnpackedFloat

/-! ## Rounding -/

theorem mantissa_shiftRight (em : ExtendedMantissa) (n : Nat) :
    (em >>> n).mantissa = em.mantissa / 2 ^ n := by
  show (n.repeat ExtendedMantissa.shiftRightOne em).mantissa = _
  induction n with
  | zero => simp [Nat.repeat]
  | succ n ih =>
    rw [Nat.repeat, ExtendedMantissa.shiftRightOne, ih, Nat.div_div_eq_div_mul, Nat.pow_succ]

theorem le_roundedMantissa (em : ExtendedMantissa) : em.mantissa ≤ em.roundedMantissa := by
  obtain ⟨m, r, s⟩ := em
  cases r <;> cases s <;>
    simp only [ExtendedMantissa.roundedMantissa, ExtendedMantissa.accuracy,
      Accuracy.roundToNearestEven] <;> omega

theorem targetExponent_eq (m : Nat) (e : Int) :
    Format.binary64.targetExponent (totalExponent m e) = max (m.log2 + e - 52) (-1074) := by
  have hbits : Format.binary64.mantissaBits = 53 := rfl
  have hmin : Format.binary64.minExponent = -1074 := rfl
  rw [Format.targetExponent, totalExponent, hbits, hmin]
  omega

/-- What a finite double consists of: significand and exponent are in range. -/
def Fits : UnpackedFloat → Prop
  | .finite _ m e _ => m < 9007199254740992 ∧ -1074 ≤ e
  | _ => True

/-- As many bits are cut off as are too many, and the top bit is kept. -/
theorem shift_bounds {m : Nat} {e : Int} (hm : 0 < m) (he : -1074 ≤ e) :
    0 < (shiftToTargetExponent Format.binary64 m e .exact).1.mantissa ∧
      (shiftToTargetExponent Format.binary64 m e .exact).1.mantissa < 9007199254740992 ∧
      -1074 ≤ (shiftToTargetExponent Format.binary64 m e .exact).2 := by
  have hlow : 2 ^ m.log2 ≤ m := Nat.log2_self_le hm.ne'
  have hhigh : m < 2 ^ (m.log2 + 1) := Nat.lt_log2_self
  simp only [shiftToTargetExponent, shiftToExponent, mantissa_shiftRight, targetExponent_eq,
    ExtendedMantissa.ofMantissaAndAccuracy]
  generalize hk : (max (m.log2 + e - 52) (-1074) - e).toNat = k
  have hsplit : 2 ^ (m.log2 + 1) ≤ 2 ^ 53 * 2 ^ k := by
    rw [← Nat.pow_add]
    exact Nat.pow_le_pow_right Nat.two_pos (by omega)
  refine ⟨?_, ?_, by omega⟩
  · apply Nat.div_pos _ (Nat.two_pow_pos k)
    exact Nat.le_trans (Nat.pow_le_pow_right Nat.two_pos (by omega)) hlow
  · rw [Nat.div_lt_iff_lt_mul (Nat.two_pow_pos k)]
    exact Nat.lt_of_lt_of_le hhigh hsplit

/-- Cutting off and rounding, twice: the second time nothing is left to round. -/
theorem exists_roundWithAccuracy (s : Sign) {m : Nat} {e : Int} (hm : 0 < m) (he : -1074 ≤ e) :
    ∃ m' e' h, roundWithAccuracy Format.binary64 s m e .exact = .finite s m' e' h ∧
      m' < 9007199254740992 ∧ -1074 ≤ e' := by
  obtain ⟨hfirst, -, hplace⟩ := shift_bounds hm he
  obtain ⟨hlast, hroom, hplace⟩ :=
    shift_bounds (Nat.lt_of_lt_of_le hfirst (le_roundedMantissa _)) hplace
  simp only [roundWithAccuracy]
  rw [dif_neg hlast.ne']
  exact ⟨_, _, _, rfl, hroom, hplace⟩

theorem exists_round (s : Sign) {m : Nat} {e : Int} (hm : 0 < m) (he : -1074 ≤ e) :
    ∃ m' e' h, UnpackedFloat.round Format.binary64 s m e = .finite s m' e' h ∧
      m' < 9007199254740992 ∧ -1074 ≤ e' := by
  apply exists_roundWithAccuracy
  · rw [Nat.shiftLeft_eq]
    exact Nat.mul_pos hm (Nat.two_pow_pos _)
  · rw [targetExponent_eq]
    omega

/-- A whole number of units at an exponent of doubles is rounded to a finite
double, which is zero only if the number is. -/
theorem fits_normalize (n : Int) {e : Int} (he : -1074 ≤ e) :
    Fits (UnpackedFloat.normalize Format.binary64 n e .positive) ∧
      UnpackedFloat.normalize Format.binary64 n e .positive ≠ .zero .negative := by
  have hround (s : Sign) {m : Nat} (hm : 0 < m) :
      Fits (UnpackedFloat.round Format.binary64 s m e) ∧
        UnpackedFloat.round Format.binary64 s m e ≠ .zero .negative := by
    obtain ⟨m', e', hpos, hfinite, hfits⟩ := exists_round s hm he
    rw [hfinite]
    exact ⟨hfits, nofun⟩
  unfold UnpackedFloat.normalize
  split
  · next h =>
    have hneg := Std.compare_eq_lt.mp h
    exact hround _ (by omega)
  · exact ⟨trivial, nofun⟩
  · next h =>
    have hpos := Std.compare_eq_gt.mp h
    exact hround _ (by omega)

/-! ## Doubles and what they consist of -/

/-- A double is put together again as it was. -/
theorem pack_unpack (x : Float) : Float.ofModel (pack x.toModel.unpack) = x :=
  Float.ofBits_toBits x

theorem fits_unpack (x : Float) : Fits x.toModel.unpack := by
  cases hn : x.isNaN with
  | true =>
    have hn : x.toModel.unpack.isNaN = true := hn
    cases hx : x.toModel.unpack with
    | finite s m e h =>
      rw [hx] at hn
      cases hn
    | _ => trivial
  | false =>
    have hu := Extremum.unpacks (Extremum.isNaN_eq_isIndefinite x ▸ hn)
    generalize x.toModel.unpack = u at hu
    generalize x.toBits.toNat % 9223372036854775808 = n at hu
    cases hu with
    | zero => trivial
    | finite _ _ hleast _ hroom => exact ⟨hroom, hleast⟩
    | infinity => trivial

/-- Nothing but a zero has the pattern of a zero: below the normal range the
significand is left, in it the exponent. -/
theorem pack_ne_packedZero {s s' : Sign} {m : Nat} {e : Int} {hm : 0 < m}
    (h : Fits (.finite s m e hm)) :
    UnpackedFloat.pack Format.binary64 (.finite s m e hm) ≠ packedZero Format.binary64 s' := by
  obtain ⟨hroom, hleast⟩ := h
  intro hzero
  have hexponent := congrArg unpackExponent hzero
  have hmantissa := congrArg unpackMantissa hzero
  rw [packedZero, unpackExponent_packComponents] at hexponent
  rw [packedZero, unpackMantissa_packComponents] at hmantissa
  unfold UnpackedFloat.pack at hexponent hmantissa
  simp only at hexponent hmantissa
  split at hexponent
  · rw [packedInfinity, unpackExponent_packComponents] at hexponent
    cases hexponent
  · next hover =>
    rw [if_neg hover] at hmantissa
    have hover : ¬ 2048 ≤ (e + 1023 + 52).toNat + 1 := hover
    split at hexponent
    · rw [unpackExponent_packComponents] at hexponent
      have hfield : (e + 1023 + 52).toNat % 2048 = 0 := congrArg BitVec.toNat hexponent
      omega
    · next hfull =>
      rw [if_neg hfull, unpackMantissa_packComponents] at hmantissa
      have hfield : m % 4503599627370496 = 0 := congrArg BitVec.toNat hmantissa
      have hlog : ¬ m.log2 = 52 := fun hlog => hfull (congrArg (· + 1) hlog)
      rw [Nat.log2_eq_iff hm.ne'] at hlog
      omega

/-- A double with the pattern of negative zero is one. -/
theorem eq_negativeZero_of_pack {u : UnpackedFloat} (hu : Fits u)
    (h : Float.ofModel (pack u) = Binary64.zero true) : u = .zero .negative := by
  have hbits : UnpackedFloat.pack Format.binary64 u = packedZero Format.binary64 .negative :=
    congrArg (fun x => x.toModel.toBits.toBitVec) h
  cases u with
  | notANumber => cases hbits
  | infinity s => cases s <;> cases hbits
  | zero s =>
    cases s with
    | negative => rfl
    | positive => cases hbits
  | finite s m e hm => exact absurd hbits (pack_ne_packedZero hu)

theorem eq_negativeZero_of_unpack {x : Float} (h : x.toModel.unpack = .zero .negative) :
    x = Binary64.zero true := by
  rw [← pack_unpack x, h]
  rfl

/-! ## Sums -/

theorem add_eq (x y : Float) : x + y = Float.ofModel
    (pack (UnpackedFloat.add Format.binary64 x.toModel.unpack y.toModel.unpack)) := rfl

/-- **Zero is neutral** for every double but negative zero. -/
theorem zero_neutral {x : Float} (h : x ≠ Binary64.zero true) :
    Arith.zero + x = x ∧ x + Arith.zero = x := by
  have hzero : (Arith.zero : Float).toModel.unpack = .zero .positive := rfl
  have hsum : UnpackedFloat.add Format.binary64 (.zero .positive) x.toModel.unpack =
      x.toModel.unpack ∧
      UnpackedFloat.add Format.binary64 x.toModel.unpack (.zero .positive) =
        x.toModel.unpack := by
    cases hx : x.toModel.unpack with
    | zero s =>
      cases s with
      | negative => exact absurd (eq_negativeZero_of_unpack hx) h
      | positive => exact ⟨rfl, rfl⟩
    | _ => exact ⟨rfl, rfl⟩
  rw [add_eq, add_eq, hzero, hsum.1, hsum.2, pack_unpack]
  exact ⟨rfl, rfl⟩

/-- A sum is a double again, and negative zero only as the sum of two. -/
theorem fits_add {u v : UnpackedFloat} (hu : Fits u) (hv : Fits v) :
    Fits (UnpackedFloat.add Format.binary64 u v) ∧
      (UnpackedFloat.add Format.binary64 u v = .zero .negative →
        u = .zero .negative ∧ v = .zero .negative) := by
  cases u with
  | notANumber => exact ⟨trivial, nofun⟩
  | infinity s =>
    cases v with
    | infinity s' => cases s <;> cases s' <;> exact ⟨trivial, nofun⟩
    | _ => exact ⟨trivial, nofun⟩
  | zero s =>
    cases v with
    | notANumber => exact ⟨trivial, nofun⟩
    | infinity s' => exact ⟨trivial, nofun⟩
    | zero s' =>
      cases s <;> cases s'
      · exact ⟨trivial, fun _ => ⟨rfl, rfl⟩⟩
      all_goals exact ⟨trivial, nofun⟩
    | finite s' m' e' h' => exact ⟨hv, nofun⟩
  | finite s m e h =>
    cases v with
    | notANumber => exact ⟨trivial, nofun⟩
    | infinity s' => exact ⟨trivial, nofun⟩
    | zero s' => exact ⟨hu, nofun⟩
    | finite s' m' e' h' =>
      have hleast : -1074 ≤ min e e' := Int.le_min.mpr ⟨hu.2, hv.2⟩
      obtain ⟨hfits, hne⟩ := fits_normalize _ hleast
      exact ⟨hfits, fun hzero => absurd hzero hne⟩

/-- **Negative zero** is the sum of negative zeros only. -/
theorem add_eq_negativeZero {x y : Float} (h : x + y = Binary64.zero true) :
    x = Binary64.zero true ∧ y = Binary64.zero true := by
  obtain ⟨hfits, hterms⟩ := fits_add (fits_unpack x) (fits_unpack y)
  obtain ⟨hx, hy⟩ := hterms (eq_negativeZero_of_pack hfits (add_eq x y ▸ h))
  exact ⟨eq_negativeZero_of_unpack hx, eq_negativeZero_of_unpack hy⟩

end PerfReport.Double
