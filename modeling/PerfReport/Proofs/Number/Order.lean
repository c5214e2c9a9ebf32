import PerfReport.Proofs.Number.Extremum

/-!
# The order of doubles

Comparing two doubles takes them apart into sign, exponent and significand. For
numbers this agrees with the order on their bit patterns: the exponent stands
above the significand in a pattern, and one number below the normal range shares
its exponent with the first ones in it.

* `Unpacks`, `unpacks`: what a number of a given sign and magnitude consists of;
* `le_of_order_le`: numbers are ordered as their patterns are;
* `isNaN_eq_isIndefinite`: the one value that is no number;
* `IsExtreme`, `isExtreme_greater`, `isExtreme_lesser`: what the greater and the
  lesser of two doubles are.
-/

namespace PerfReport.Extremum

open Float.Model Float.Model.UnpackedFloat

/-! ## Taking a double apart -/

/-- The upper half of the patterns is negative. -/
def signOf (bits : Nat) : Sign := if bits < 9223372036854775808 then .positive else .negative

/-- What a number of this sign and magnitude consists of. The magnitude of a
finite one is its exponent above the least one, then its significand, whose top
bit is only missing at the least exponent. -/
inductive Unpacks (s : Sign) : (magnitude : Nat) → UnpackedFloat → Prop
  | zero : Unpacks s 0 (.zero s)
  | finite {n m : Nat} {e : Int} (hpos : 0 < m)
      (hsize : (n : Int) = (e + 1074) * 4503599627370496 + m) (hleast : -1074 ≤ e)
      (hfull : -1074 < e → 4503599627370496 ≤ m) (hroom : m < 9007199254740992)
      (hfinite : n < 9218868437227405312) : Unpacks s n (.finite s m e hpos)
  | infinity : Unpacks s 9218868437227405312 (.infinity s)

theorem toNat_unpackSign (b : BitVec Format.binary64.numBits) :
    (unpackSign b).toNat = b.toNat / 9223372036854775808 % 2 := by
  simp [unpackSign, BitVec.extractLsb, Nat.shiftRight_eq_div_pow]

theorem ofBitVec_unpackSign (b : BitVec Format.binary64.numBits) :
    Sign.ofBitVec (unpackSign b) = signOf b.toNat := by
  have hlt : b.toNat < 18446744073709551616 := b.isLt
  have hs := toNat_unpackSign b
  unfold Sign.ofBitVec signOf
  by_cases h : b.toNat < 9223372036854775808
  · have hzero : unpackSign b = 0#1 := by
      apply BitVec.eq_of_toNat_eq
      rw [hs]
      show _ = 0
      omega
    rw [if_pos h, if_pos hzero]
  · have hone : unpackSign b ≠ 0#1 := by
      intro hzero
      have hbit : b.toNat / 9223372036854775808 % 2 = 0 :=
        hs.symm.trans (congrArg BitVec.toNat hzero)
      omega
    rw [if_neg h, if_neg hone]

theorem toNat_one_append (v : BitVec 52) : (1#1 ++ v).toNat = 4503599627370496 + v.toNat := by
  rw [BitVec.toNat_append, ← Nat.shiftLeft_add_eq_or_of_lt v.isLt]
  rfl

/-- Every double but the indefinite value is a number. -/
theorem unpacks {x : Float} (h : isIndefinite x.toBits.toNat = false) :
    Unpacks (signOf x.toBits.toNat) (x.toBits.toNat % 9223372036854775808) x.toModel.unpack := by
  have hn : ¬ 9218868437227405312 < x.toBits.toNat % 9223372036854775808 := by
    rw [← isIndefinite_iff, h]
    exact Bool.false_ne_true
  have hs : Sign.ofBitVec (@unpackSign Format.binary64 x.toModel.toBits.toBitVec) =
      signOf x.toBits.toNat := ofBitVec_unpackSign _
  have he : (@unpackExponent Format.binary64 x.toModel.toBits.toBitVec).toNat =
      x.toBits.toNat / 4503599627370496 % 2048 := toNat_unpackExponent _
  have hm : (@unpackMantissa Format.binary64 x.toModel.toBits.toBitVec).toNat =
      x.toBits.toNat % 4503599627370496 := toNat_unpackMantissa _
  have hbias : ((Format.binary64.exponentBias : Nat) : Int) = 1023 := rfl
  unfold Float.Model.unpack UnpackedFloat.unpack
  simp only [hs]
  split
  · next hmax =>
    have hmax : _ = 2047 := he.symm.trans (congrArg BitVec.toNat hmax)
    have hzero : @unpackMantissa Format.binary64 x.toModel.toBits.toBitVec = 0#_ := by
      apply BitVec.eq_of_toNat_eq
      rw [hm]
      show _ = 0
      omega
    have hsize : x.toBits.toNat % 9223372036854775808 = 9218868437227405312 := by omega
    rw [if_pos hzero, hsize]
    exact .infinity
  · next hmax =>
    have hmax : x.toBits.toNat / 4503599627370496 % 2048 ≠ 2047 :=
      fun h => hmax (BitVec.eq_of_toNat_eq (he.trans h))
    split
    · next hmin =>
      have hmin : _ = 0 := he.symm.trans (congrArg BitVec.toNat hmin)
      split
      · next hzero =>
        have hzero : _ = 0 := hm.symm.trans (congrArg BitVec.toNat hzero)
        have hsize : x.toBits.toNat % 9223372036854775808 = 0 := by omega
        rw [hsize]
        exact .zero
      · refine .finite _ ?_ ?_ ?_ ?_ ?_ <;> omega
    · next hmin =>
      have hmin : x.toBits.toNat / 4503599627370496 % 2048 ≠ 0 :=
        fun h => hmin (BitVec.eq_of_toNat_eq (he.trans h))
      have htop := toNat_one_append (@unpackMantissa Format.binary64 x.toModel.toBits.toBitVec)
      refine .finite _ ?_ ?_ ?_ ?_ ?_ <;> omega

/-- There is one value that is no number. -/
theorem isNaN_eq_isIndefinite (x : Float) : x.isNaN = isIndefinite x.toBits.toNat := by
  cases h : isIndefinite x.toBits.toNat with
  | false =>
    have hu := unpacks h
    show x.toModel.unpack.isNaN = false
    generalize x.toModel.unpack = u at hu
    generalize x.toBits.toNat % 9223372036854775808 = n at hu
    cases hu <;> rfl
  | true =>
    have hbits : x.toBits = Binary64.nan.toBits := UInt64.toNat_inj.mp (toBits_of_isIndefinite h)
    rw [Float.toBits_inj.mp hbits]
    rfl

/-! ## Comparing -/

/-- A number equals itself. -/
theorem beq_self {x : Float} (h : isIndefinite x.toBits.toNat = false) : (x == x) = true := by
  have hu := unpacks h
  show x.toModel.unpack.beq x.toModel.unpack = true
  generalize x.toModel.unpack = u at hu
  generalize x.toBits.toNat % 9223372036854775808 = n at hu
  generalize signOf x.toBits.toNat = s at hu
  cases hu <;> cases s <;> simp [UnpackedFloat.beq, UnpackedFloat.compare] <;> rfl

/-- A greater exponent comes with a full significand, so that it outweighs any
significand at a lesser one. -/
theorem isLE_compare_finite {n n' m m' : Nat} {e e' : Int}
    (hsize : (n : Int) = (e + 1074) * 4503599627370496 + m)
    (hsize' : (n' : Int) = (e' + 1074) * 4503599627370496 + m')
    (hleast : -1074 ≤ e') (hfull : -1074 < e → 4503599627370496 ≤ m)
    (hroom : m' < 9007199254740992) (h : n ≤ n') :
    ((compare e e').then (compare m m')).isLE = true := by
  rcases Int.lt_trichotomy e e' with hlt | rfl | hgt
  · rw [Std.compare_eq_lt.mpr hlt]
    rfl
  · rw [Std.compare_self]
    exact Std.isLE_compare.mpr (by omega)
  · have := hfull (by omega)
    omega

theorem le_of_positive {n n' : Nat} {u v : UnpackedFloat} (hu : Unpacks .positive n u)
    (hv : Unpacks .positive n' v) (h : n ≤ n') : u.le v = true := by
  cases hu with
  | zero => cases hv <;> rfl
  | finite hpos hsize hleast hfull hroom hfinite =>
    cases hv with
    | zero => omega
    | finite hpos' hsize' hleast' hfull' hroom' hfinite' =>
      exact isLE_compare_finite hsize hsize' hleast' hfull hroom' h
    | infinity => rfl
  | infinity =>
    cases hv with
    | zero => omega
    | finite hpos' hsize' hleast' hfull' hroom' hfinite' => omega
    | infinity => rfl

theorem le_of_negative {n n' : Nat} {u v : UnpackedFloat} (hu : Unpacks .negative n u)
    (hv : Unpacks .negative n' v) (h : n' ≤ n) : u.le v = true := by
  cases hv with
  | zero => cases hu <;> rfl
  | finite hpos hsize hleast hfull hroom hfinite =>
    cases hu with
    | zero => omega
    | finite hpos' hsize' hleast' hfull' hroom' hfinite' =>
      rw [UnpackedFloat.le, UnpackedFloat.compare, Option.any_some, Ordering.swap_then,
        ← Std.OrientedOrd.eq_swap, ← Std.OrientedOrd.eq_swap]
      exact isLE_compare_finite hsize hsize' hleast' hfull hroom' h
    | infinity => rfl
  | infinity =>
    cases hu with
    | zero => omega
    | finite hpos' hsize' hleast' hfull' hroom' hfinite' => omega
    | infinity => rfl

theorem le_of_signs {n n' : Nat} {u v : UnpackedFloat} (hu : Unpacks .negative n u)
    (hv : Unpacks .positive n' v) : u.le v = true := by
  cases hu <;> cases hv <;> rfl

/-- **Order.**  Numbers are ordered as their bit patterns are. -/
theorem le_of_order_le {x y : Float} (hx : isIndefinite x.toBits.toNat = false)
    (hy : isIndefinite y.toBits.toNat = false) (h : order x.toBits.toNat ≤ order y.toBits.toNat) :
    x ≤ y := by
  have hu := unpacks hx
  have hv := unpacks hy
  have hx := x.toBits.toNat_lt
  have hy := y.toBits.toNat_lt
  rw [order_eq, order_eq] at h
  have hle : x.toModel.unpack.le y.toModel.unpack = true := by
    unfold signOf at hu hv
    split at hu <;> split at hv
    · next hx' hy' =>
      rw [if_pos hx', if_pos hy'] at h
      exact le_of_positive hu hv (by omega)
    · next hx' hy' =>
      rw [if_pos hx', if_neg hy'] at h
      omega
    · exact le_of_signs hu hv
    · next hx' hy' =>
      rw [if_neg hx', if_neg hy'] at h
      exact le_of_negative hu hv (by omega)
  exact decide_eq_true hle

/-! ## The greater and the lesser of two -/

theorem toBits_infinity (negative : Bool) : (Binary64.infinity negative).toBits.toNat =
    if negative then 18442240474082181120 else 9218868437227405312 := by
  cases negative <;> rfl

theorem le_of_maxRank_le {x y : Float} (hx : x.isNaN = false) (hy : y.isNaN = false)
    (h : maxRank x ≤ maxRank y) : x ≤ y := by
  rw [isNaN_eq_isIndefinite] at hx hy
  rw [maxRank, upperRank, if_neg (by simp [hx]), maxRank, upperRank, if_neg (by simp [hy])] at h
  exact le_of_order_le hx hy (by omega)

theorem ge_of_minRank_le {x y : Float} (hx : x.isNaN = false) (hy : y.isNaN = false)
    (h : minRank x ≤ minRank y) : y ≤ x := by
  rw [isNaN_eq_isIndefinite] at hx hy
  rw [minRank, lowerRank, if_neg (by simp [hx]), minRank, lowerRank, if_neg (by simp [hy])] at h
  exact le_of_order_le hy hx (by omega)

/-- `u` is the greater of `x` and `y`, or the lesser if the negative end counts:
it is one of them, and neither is beyond it. The indefinite value gives way to
the infinity at that end only, and of two zeros the one of that sign is taken. -/
structure IsExtreme (negative : Bool) (x y u : Float) : Prop where
  one : u = x ∨ u = y
  bound : x.isNaN = false → y.isNaN = false →
    if negative then u ≤ x ∧ u ≤ y else x ≤ u ∧ y ≤ u
  indefinite : x.isNaN = true ∨ y.isNaN = true →
    u.isNaN = true ∨ u = Binary64.infinity negative
  zero : x = Binary64.zero negative ∨ y = Binary64.zero negative →
    u ≠ Binary64.zero (!negative)

/-- What is indefinite ranks at `top`, and only the infinity is above. -/
theorem isExtreme_higher {rank : Float → Int} {negative : Bool} {top : Int}
    (hnan : ∀ x, x.isNaN = true → rank x = top)
    (htop : ∀ x, x.isNaN = false → top ≤ rank x → x = Binary64.infinity negative)
    (hle : ∀ x y, x.isNaN = false → y.isNaN = false → rank x ≤ rank y →
      if negative then y ≤ x else x ≤ y)
    (hzero : rank (Binary64.zero (!negative)) < rank (Binary64.zero negative)) (x y : Float) :
    IsExtreme negative x y (higher rank x y) := by
  obtain ⟨hx, hy⟩ := rank_le_higher rank x y
  have hone := higher_eq_or rank x y
  refine ⟨hone, ?_, ?_, ?_⟩
  · intro hnx hny
    have hnu : (higher rank x y).isNaN = false := by
      rcases hone with h | h <;> rw [h] <;> assumption
    have hbx := hle _ _ hnx hnu hx
    have hby := hle _ _ hny hnu hy
    cases negative
    · exact ⟨hbx, hby⟩
    · exact ⟨hbx, hby⟩
  · intro h
    have hrank : top ≤ rank (higher rank x y) := by
      rcases h with h | h
      · exact hnan x h ▸ hx
      · exact hnan y h ▸ hy
    cases hu : (higher rank x y).isNaN with
    | true => exact .inl rfl
    | false => exact .inr (htop _ hu hrank)
  · intro h hu
    rw [hu] at hx hy
    rcases h with rfl | rfl <;> omega

theorem isExtreme_greater (x y : Float) : IsExtreme false x y (greater x y) := by
  have hinf : order Binary64.infinityBits = 9218868437227405312 := rfl
  have hnan : ∀ u : Float, u.isNaN = true → maxRank u = 18437736874454810623 := by
    intro u hu
    rw [isNaN_eq_isIndefinite] at hu
    rw [maxRank, upperRank, if_pos hu, hinf]
    rfl
  refine isExtreme_higher hnan ?_ ?_ (by decide) x y
  · intro u hu hrank
    have hlt := u.toBits.toNat_lt
    rw [isNaN_eq_isIndefinite] at hu
    rw [maxRank, upperRank, if_neg (by simp [hu]), order_eq] at hrank
    rw [← Bool.not_eq_true, isIndefinite_iff] at hu
    rw [← Float.toBits_inj, ← UInt64.toNat_inj, toBits_infinity]
    simp only [Bool.false_eq_true, if_false]
    split at hrank <;> omega
  · intro u v hu hv h
    exact le_of_maxRank_le hu hv h

theorem isExtreme_lesser (x y : Float) : IsExtreme true x y (lesser x y) := by
  have hinf : order (pow2 63 + Binary64.infinityBits) = -9218868437227405313 := rfl
  have hnan : ∀ u : Float, u.isNaN = true → minRank u = 18437736874454810625 := by
    intro u hu
    rw [isNaN_eq_isIndefinite] at hu
    rw [minRank, lowerRank, if_pos hu, hinf]
    rfl
  rw [lesser_eq_higher]
  refine isExtreme_higher hnan ?_ ?_ (by decide) x y
  · intro u hu hrank
    have hlt := u.toBits.toNat_lt
    rw [isNaN_eq_isIndefinite] at hu
    rw [minRank, lowerRank, if_neg (by simp [hu]), order_eq] at hrank
    rw [← Bool.not_eq_true, isIndefinite_iff] at hu
    rw [← Float.toBits_inj, ← UInt64.toNat_inj, toBits_infinity]
    simp only [if_true]
    split at hrank <;> omega
  · intro u v hu hv h
    exact ge_of_minRank_le hu hv h

end PerfReport.Extremum
