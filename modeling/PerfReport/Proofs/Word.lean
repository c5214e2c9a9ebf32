import PerfReport.Word

/-!
# Words read back

The bytes of a word determine it and are determined by it, in either byte
order: `littleValue_little` and `little_littleValue` say so for words of any
width, lowest byte first. With the highest byte first, words of one width
sort as the numbers they spell (`lt_iff_bigValue_lt`). Bounds are stated with
`Nat.pow`.
-/

namespace PerfReport.Word

@[simp] theorem length_little (width n : Nat) : (little width n).length = width := by
  induction width generalizing n with
  | zero => rfl
  | succ w ih => simp [little, ih]

theorem littleValue_lt (t : Text) : littleValue t < Nat.pow 256 t.length := by
  induction t with
  | nil => decide
  | cons b t ih =>
    have hb : b.toNat < 256 := b.toNat_lt
    have hp : Nat.pow 256 (t.length + 1) = Nat.pow 256 t.length * 256 := rfl
    simp only [littleValue, List.length_cons]
    omega

theorem littleValue_little (width n : Nat) (h : n < Nat.pow 256 width) :
    littleValue (little width n) = n := by
  induction width generalizing n with
  | zero =>
    simp only [Nat.pow] at h
    simp only [little, littleValue]
    omega
  | succ w ih =>
    have hp : Nat.pow 256 (w + 1) = Nat.pow 256 w * 256 := rfl
    have hq : n / 256 < Nat.pow 256 w := by omega
    have hb : (UInt8.ofNat (n % 256)).toNat = n % 256 := by
      rw [UInt8.toNat_ofNat']
      omega
    simp only [little, littleValue, ih _ hq, hb]
    omega

theorem little_littleValue (t : Text) : little t.length (littleValue t) = t := by
  induction t with
  | nil => rfl
  | cons b t ih =>
    have hb : b.toNat < 256 := b.toNat_lt
    have hlow : (b.toNat + 256 * littleValue t) % 256 = b.toNat := by omega
    have hhigh : (b.toNat + 256 * littleValue t) / 256 = littleValue t := by omega
    simp only [List.length_cons, littleValue, little, hlow, hhigh, ih, UInt8.ofNat_toNat]

/-! ## Highest byte first -/

@[simp] theorem length_big (width n : Nat) : (big width n).length = width := by
  simp [big]

theorem bigValue_big (width n : Nat) (h : n < Nat.pow 256 width) :
    bigValue (big width n) = n := by
  rw [bigValue, big, List.reverse_reverse, littleValue_little width n h]

theorem big_bigValue (t : Text) : big t.length (bigValue t) = t := by
  have h := little_littleValue t.reverse
  rw [List.length_reverse] at h
  rw [bigValue, big, h, List.reverse_reverse]

theorem bigValue_lt (t : Text) : bigValue t < Nat.pow 256 t.length := by
  have h := littleValue_lt t.reverse
  rwa [List.length_reverse] at h

theorem littleValue_append (t u : Text) :
    littleValue (t ++ u) = littleValue t + Nat.pow 256 t.length * littleValue u := by
  induction t with
  | nil => simp [littleValue]
  | cons b t ih =>
    have hp : Nat.pow 256 (t.length + 1) = 256 * Nat.pow 256 t.length := Nat.mul_comm ..
    simp only [List.cons_append, littleValue, ih, List.length_cons, hp, Nat.mul_add,
      Nat.mul_assoc, Nat.add_assoc]

theorem bigValue_cons (b : UInt8) (t : Text) :
    bigValue (b :: t) = bigValue t + Nat.pow 256 t.length * b.toNat := by
  simp [bigValue, littleValue_append, littleValue]

/-- The first byte that differs decides: it weighs more than all that follow. -/
theorem lt_iff_bigValue_lt (t u : Text) (h : t.length = u.length) :
    t < u ↔ bigValue t < bigValue u := by
  induction t generalizing u with
  | nil =>
    rw [List.length_eq_zero_iff.mp h.symm]
    simp
  | cons b t ih =>
    cases u with
    | nil => simp at h
    | cons c u =>
      have hlen : t.length = u.length := by simpa using h
      have ht := bigValue_lt t
      have hu := bigValue_lt u
      rw [List.cons_lt_cons_iff, ih u hlen, bigValue_cons, bigValue_cons, hlen]
      rw [hlen] at ht
      rcases Nat.lt_trichotomy b.toNat c.toNat with hbc | hbc | hbc
      · have hstep := Nat.mul_le_mul_left (Nat.pow 256 u.length) (Nat.succ_le_of_lt hbc)
        rw [Nat.mul_succ] at hstep
        exact iff_of_true (.inl (UInt8.lt_iff_toNat_lt.mpr hbc)) (by omega)
      · have heq : b = c := UInt8.toNat_inj.mp hbc
        simp [heq]
      · have hstep := Nat.mul_le_mul_left (Nat.pow 256 u.length) (Nat.succ_le_of_lt hbc)
        rw [Nat.mul_succ] at hstep
        refine iff_of_false ?_ (by omega)
        rintro (hlt | ⟨rfl, -⟩)
        · exact Nat.lt_asymm hbc (UInt8.lt_iff_toNat_lt.mp hlt)
        · exact Nat.lt_irrefl _ hbc

end PerfReport.Word
