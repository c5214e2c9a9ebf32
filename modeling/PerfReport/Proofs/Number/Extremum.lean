import Mathlib
import PerfReport.Number.Extremum

/-!
# Extrema in any order

There is one indefinite value, so no two doubles share a rank. The greater and
the lesser of two doubles therefore depend neither on their order nor on how
several of them are grouped, and a value counts once however often it is
taken.

* `toBits_of_isIndefinite`: the bits of the indefinite value;
* `eq_of_rank_eq`: doubles of the same rank are the same;
* `foldl_append_op`: folding from a seed, in one go or in two parts.
-/

namespace PerfReport.Extremum

/-! ## Ranks -/

theorem isIndefinite_iff (bits : Nat) :
    isIndefinite bits = true ↔ 9218868437227405312 < bits % 9223372036854775808 :=
  decide_eq_true_iff

section Fields

open Float.Model Float.Model.UnpackedFloat

theorem toNat_unpackExponent (b : BitVec Format.binary64.numBits) :
    (unpackExponent b).toNat = b.toNat / 4503599627370496 % 2048 := by
  simp [unpackExponent, BitVec.extractLsb, Nat.shiftRight_eq_div_pow]

theorem toNat_unpackMantissa (b : BitVec Format.binary64.numBits) :
    (unpackMantissa b).toNat = b.toNat % 4503599627370496 := by
  simp [unpackMantissa, BitVec.extractLsb]

/-- There is one indefinite value only. -/
theorem toBits_of_isIndefinite {x : Float} (h : isIndefinite x.toBits.toNat = true) :
    x.toBits.toNat = 9221120237041090560 := by
  rw [isIndefinite_iff] at h
  have hword : x.toBits.toBitVec.toNat = x.toBits.toNat := rfl
  have hexponent : @unpackExponent Format.binary64 x.toBits.toBitVec = -1#_ := by
    apply BitVec.eq_of_toNat_eq
    rw [toNat_unpackExponent, hword]
    show _ = 2047
    omega
  have hmantissa : @unpackMantissa Format.binary64 x.toBits.toBitVec ≠ 0#_ := by
    intro hzero
    have hbits := congrArg BitVec.toNat hzero
    rw [toNat_unpackMantissa, hword] at hbits
    have hbits : x.toBits.toNat % 4503599627370496 = 0 := hbits
    omega
  exact congrArg BitVec.toNat (x.toModel.valid.eq_packedNaN hexponent hmantissa)

end Fields

theorem order_eq (bits : Nat) : order bits =
    if bits < 9223372036854775808 then (bits : Int) else -((bits : Int) - 9223372036854775808) - 1 :=
  rfl

/-- A number has an even rank; the indefinite value has the odd one, `n`. -/
theorem eq_of_rank_eq {n : Int} (hn : n % 2 = 1) {x y : Float}
    (h : (if isIndefinite x.toBits.toNat then n else 2 * order x.toBits.toNat) =
      if isIndefinite y.toBits.toNat then n else 2 * order y.toBits.toNat) : x = y := by
  rw [← Float.toBits_inj, ← UInt64.toNat_inj]
  cases hx : isIndefinite x.toBits.toNat <;> cases hy : isIndefinite y.toBits.toNat <;>
    simp only [hx, hy, if_true, if_false, Bool.false_eq_true] at h
  · rw [order_eq, order_eq] at h
    split at h <;> split at h <;> omega
  · omega
  · omega
  · rw [toBits_of_isIndefinite hx, toBits_of_isIndefinite hy]

/-! ## The one of the higher rank -/

section Higher

variable {β : Type}

/-- The one of the higher rank. -/
def higher (rank : β → Int) (x y : β) : β := if rank x ≤ rank y then y else x

variable {rank : β → Int}

theorem higher_self (x : β) : higher rank x x = x := if_pos (Int.le_refl _)

theorem higher_comm (hrank : ∀ x y, rank x = rank y → x = y) (x y : β) :
    higher rank x y = higher rank y x := by
  unfold higher
  split <;> split
  · exact (hrank x y (by omega)).symm
  · rfl
  · rfl
  · omega

theorem higher_assoc (x y z : β) :
    higher rank (higher rank x y) z = higher rank x (higher rank y z) := by
  unfold higher
  by_cases hxy : rank x ≤ rank y <;> by_cases hyz : rank y ≤ rank z
  · have hxz : rank x ≤ rank z := by omega
    simp [hxy, hyz, hxz]
  · simp [hxy, hyz]
  · simp [hxy, hyz]
  · have hxz : ¬ rank x ≤ rank z := by omega
    simp [hxy, hyz, hxz]

variable (rank)

theorem rank_le_higher (x y : β) :
    rank x ≤ rank (higher rank x y) ∧ rank y ≤ rank (higher rank x y) := by
  unfold higher
  split <;> omega

theorem higher_eq_or (x y : β) : higher rank x y = x ∨ higher rank x y = y := by
  unfold higher
  split
  · exact .inr rfl
  · exact .inl rfl

end Higher

/-- The rank in a maximum. -/
def maxRank (x : Float) : Int := upperRank x.toBits.toNat

/-- The rank in a minimum, the least one highest. -/
def minRank (x : Float) : Int := -lowerRank x.toBits.toNat

theorem maxRank_inj (x y : Float) (h : maxRank x = maxRank y) : x = y :=
  eq_of_rank_eq (n := 2 * order Binary64.infinityBits - 1) (by decide) h

theorem minRank_inj (x y : Float) (h : minRank x = minRank y) : x = y :=
  eq_of_rank_eq (n := 2 * order (pow2 63 + Binary64.infinityBits) + 1) (by decide)
    (Int.neg_inj.mp h)

theorem greater_eq_higher (x y : Float) : greater x y = higher maxRank x y := rfl

theorem lesser_eq_higher (x y : Float) : lesser x y = higher minRank x y := by
  rw [higher_comm minRank_inj, higher, minRank, minRank, lesser]
  simp only [Int.neg_le_neg_iff]

instance : Std.Commutative greater where
  comm x y := by simp only [greater_eq_higher, higher_comm maxRank_inj x y]

instance : Std.Associative greater where
  assoc x y z := by simp only [greater_eq_higher, higher_assoc]

instance : Std.IdempotentOp greater where
  idempotent x := by rw [greater_eq_higher, higher_self]

instance : Std.Commutative lesser where
  comm x y := by simp only [lesser_eq_higher, higher_comm minRank_inj x y]

instance : Std.Associative lesser where
  assoc x y z := by simp only [lesser_eq_higher, higher_assoc]

instance : Std.IdempotentOp lesser where
  idempotent x := by rw [lesser_eq_higher, higher_self]

/-! ## Folding from a seed -/

section Fold

variable {β : Type} (op : β → β → β) [Std.Commutative op] [Std.Associative op]
  [Std.IdempotentOp op]

/-- The seed is in the result already. -/
theorem foldl_op_seed (seed : β) (xs : List β) :
    op (xs.foldl op seed) seed = xs.foldl op seed :=
  calc op (xs.foldl op seed) seed
    _ = op seed (xs.foldl op seed) := Std.Commutative.comm _ _
    _ = xs.foldl op (op seed seed) := List.foldl_assoc.symm
    _ = xs.foldl op seed := congrArg (List.foldl op · xs) (Std.IdempotentOp.idempotent seed)

/-- **Two parts.**  Each of them may start from the seed. -/
theorem foldl_append_op (seed : β) (xs ys : List β) :
    (xs ++ ys).foldl op seed = op (xs.foldl op seed) (ys.foldl op seed) :=
  calc (xs ++ ys).foldl op seed
    _ = ys.foldl op (op (xs.foldl op seed) seed) := by rw [List.foldl_append, foldl_op_seed op]
    _ = op (xs.foldl op seed) (ys.foldl op seed) := List.foldl_assoc

end Fold

end PerfReport.Extremum
