import PerfReport.Number.Fixed
import PerfReport.Proofs.Number.Nearest
import PerfReport.Proofs.Number.Numeral
import PerfReport.Proofs.Number.Rational

/-!
# Fixed-point numerals

What a double looks like with a number of decimal places, and how far from the
double that is.

* `withPoint_spells`, `magnitude_spells`: a numeral with as many places as asked
  for, also where a double has no more to tell;
* `nearest_steps`, `steps_exact`: the number that is written, in steps of the
  last place;
* `write_nearest`: what is written of a finite double.
-/

namespace PerfReport.Fixed

open Binary64

/-! ## Numerals with a point -/

/-- Digits, a point and as many digits as there are places; without places there
is no point. With the number that is spelled. -/
inductive Spells (places : ℕ) : Text → ℚ → Prop
  | mk {whole fraction : Text} (hne : whole ≠ []) (hwhole : ∀ b ∈ whole, Text.isDigit b = true)
      (hfraction : ∀ b ∈ fraction, Text.isDigit b = true) (hplaces : fraction.length = places) :
      Spells places (whole ++ if places = 0 then [] else 46 :: fraction)
        (Text.numeralValue whole + Text.numeralValue fraction / 10 ^ places)

/-- The same, maybe with a minus sign in front. -/
inductive SpellsSigned (places : ℕ) : Text → ℚ → Prop
  | plain {t : Text} {r : ℚ} (h : Spells places t r) : SpellsSigned places t r
  | minus {t : Text} {r : ℚ} (h : Spells places t r) : SpellsSigned places (45 :: t) (-r)

/-- The digits of `n`, and zeros in front so that one stands before the point. -/
def padded (places n : ℕ) : Text :=
  List.replicate (places + 1 - (Text.ofNat n).length) 48 ++ Text.ofNat n

theorem isDigit_of_mem_zeros {k : ℕ} {b : UInt8} (hb : b ∈ List.replicate k (48 : UInt8)) :
    Text.isDigit b = true := by
  rw [List.eq_of_mem_replicate hb]
  rfl

theorem isDigit_of_mem_padded {places n : ℕ} {b : UInt8} (hb : b ∈ padded places n) :
    Text.isDigit b = true := by
  rcases List.mem_append.mp hb with hzero | hdigit
  · exact isDigit_of_mem_zeros hzero
  · exact Text.isDigit_of_mem_ofNat hdigit

theorem lt_length_padded (places n : ℕ) : places < (padded places n).length := by
  rw [padded, List.length_append, List.length_replicate]
  omega

theorem numeralValue_padded (places n : ℕ) : Text.numeralValue (padded places n) = n := by
  rw [padded, Text.numeralValue_append, Text.numeralValue_zeros, Text.numeralValue_ofNat,
    Nat.zero_mul, Nat.zero_add]

theorem withPoint_eq (places n : ℕ) : withPoint places n =
    (padded places n).take ((padded places n).length - places) ++
      if places = 0 then [] else
        46 :: (padded places n).drop ((padded places n).length - places) := by
  by_cases h : places = 0 <;> simp [withPoint, padded, h]

theorem withPoint_spells (places n : ℕ) : Spells places (withPoint places n) (n / 10 ^ places) := by
  have hlt := lt_length_padded places n
  have hvalue := numeralValue_padded places n
  have hdigit : ∀ b ∈ padded places n, Text.isDigit b = true := fun b => isDigit_of_mem_padded
  rw [withPoint_eq]
  generalize padded places n = digits at hlt hvalue hdigit
  have hfraction : (digits.drop (digits.length - places)).length = places := by
    rw [List.length_drop]
    omega
  have hsplit := Text.numeralValue_append (digits.take (digits.length - places))
    (digits.drop (digits.length - places))
  rw [List.take_append_drop, hvalue, hfraction] at hsplit
  have hspelled : ((n : ℕ) : ℚ) / 10 ^ places =
      Text.numeralValue (digits.take (digits.length - places)) +
        Text.numeralValue (digits.drop (digits.length - places)) / 10 ^ places := by
    rw [hsplit]
    push_cast [cast_pow10]
    field_simp
  rw [hspelled]
  refine .mk ?_ (fun b hb => hdigit b (List.mem_of_mem_take hb))
    (fun b hb => hdigit b (List.mem_of_mem_drop hb)) hfraction
  rw [← List.length_pos_iff, List.length_take]
  omega

/-- Zeros at the end of the places change nothing. -/
theorem Spells.append_zeros {places : ℕ} {t : Text} {r : ℚ} (h : Spells places t r)
    (hplaces : 0 < places) (k : ℕ) : Spells (places + k) (t ++ List.replicate k 48) r := by
  cases h with
  | @mk whole fraction hne hwhole hfraction hlength =>
    have hzeros : ∀ b ∈ fraction ++ List.replicate k 48, Text.isDigit b = true := by
      intro b hb
      rcases List.mem_append.mp hb with hb | hb
      · exact hfraction b hb
      · exact isDigit_of_mem_zeros hb
    have hmore := Spells.mk hne hwhole hzeros
      (by rw [List.length_append, List.length_replicate, hlength])
    have hvalue : ((Text.numeralValue (fraction ++ List.replicate k 48) : ℕ) : ℚ) / 10 ^ (places + k) =
        Text.numeralValue fraction / 10 ^ places := by
      rw [Text.numeralValue_append, Text.numeralValue_zeros, List.length_replicate, pow_add]
      push_cast [cast_pow10]
      field_simp
      simp
    rw [hvalue, if_neg (by omega)] at hmore
    rw [if_neg (by omega)]
    simpa using hmore

/-! ## Steps of the last place -/

/-- `significand · 2 ^ exponent` in steps of the last place, to the nearest. -/
def steps (places significand : ℕ) (exponent : ℤ) : ℕ :=
  if 0 ≤ exponent then significand * pow10 places * pow2 exponent.toNat
  else roundQuotient (significand * pow10 places) (pow2 (-exponent).toNat)

theorem magnitude_spells (places m : ℕ) (e : ℤ) : Spells places (magnitude places m e)
    (steps (min places exactPlaces) m e / 10 ^ min places exactPlaces) := by
  have hspells := withPoint_spells (min places exactPlaces) (steps (min places exactPlaces) m e)
  have hmagnitude : magnitude places m e =
      withPoint (min places exactPlaces) (steps (min places exactPlaces) m e) ++
        List.replicate (places - min places exactPlaces) 48 := rfl
  rw [hmagnitude]
  rcases Nat.le_total places exactPlaces with h | h
  · rw [Nat.min_eq_left h] at hspells ⊢
    rwa [Nat.sub_self, List.replicate_zero, List.append_nil]
  · rw [Nat.min_eq_right h] at hspells ⊢
    have hmore := hspells.append_zeros (by decide) (places - exactPlaces)
    rwa [Nat.add_sub_cancel' h] at hmore

theorem pow10_eq {k places : ℕ} (h : k ≤ places) :
    pow10 places = 2 ^ (places - k) * 5 ^ places * pow2 k := by
  have hten : pow10 places = (2 * 5) ^ places := rfl
  have htwo : 2 ^ places = 2 ^ (places - k) * pow2 k := by
    rw [pow2, Nat.pow_eq, ← pow_add, Nat.sub_add_cancel h]
  rw [hten, mul_pow, htwo]
  ring

/-- No more decimal than binary places are needed. -/
theorem steps_exact {places m : ℕ} {e : ℤ} (h : -(places : ℤ) ≤ e) :
    (m * 2 ^ e : ℚ) = (steps places m e : ℤ) / 10 ^ places := by
  unfold steps
  split
  · next he =>
    obtain ⟨k, rfl⟩ := Int.eq_ofNat_of_zero_le he
    rw [Int.toNat_natCast, zpow_natCast]
    push_cast [cast_pow10, cast_pow2]
    field_simp
  · next he =>
    obtain ⟨k, rfl⟩ : ∃ k : ℕ, e = -k := ⟨(-e).toNat, by omega⟩
    have hscale := pow10_eq (by omega : k ≤ places)
    have hround : roundQuotient (m * pow10 places) (pow2 k) = m * (2 ^ (places - k) * 5 ^ places) := by
      rw [hscale, ← Nat.mul_assoc]
      exact roundQuotient_mul _ (pow2_pos k)
    have hcast : (10 : ℚ) ^ places = 2 ^ (places - k) * 5 ^ places * 2 ^ k := by
      rw [← cast_pow10, hscale]
      push_cast [cast_pow2]
      rfl
    rw [neg_neg, Int.toNat_natCast, hround, zpow_neg, zpow_natCast, hcast]
    push_cast
    field_simp

theorem nearest_steps (places m : ℕ) (e : ℤ) :
    Nearest (10 ^ places) (m * 2 ^ e) (steps places m e) := by
  have hscale : (0 : ℚ) < 10 ^ places := by positivity
  by_cases he : 0 ≤ e
  · rw [steps_exact (by omega)]
    exact Nearest.self hscale _
  · obtain ⟨k, rfl⟩ : ∃ k : ℕ, e = -k := ⟨(-e).toNat, by omega⟩
    have hround := nearest_roundQuotient (m * pow10 places) (pow2_pos k) hscale
    have hquotient : (m * 2 ^ (-(k : ℤ)) : ℚ) =
        ((m * pow10 places : ℕ) : ℚ) / (pow2 k : ℕ) / 10 ^ places := by
      rw [zpow_neg, zpow_natCast]
      push_cast [cast_pow10, cast_pow2]
      field_simp
    rwa [steps, if_neg he, neg_neg, Int.toNat_natCast, hquotient]

/-! ## Doubles -/

theorem exponent_ofBits {bits m : ℕ} {negative : Bool} {e : ℤ}
    (h : Value.ofBits bits = .finite negative m e) : -1074 ≤ e := by
  rw [ofBits_eq] at h
  split_ifs at h with hlarge hzero hsmall
  · cases h
    decide
  · cases h
    omega

theorem div_pow10_add (n : ℤ) (places k : ℕ) :
    (n : ℚ) / 10 ^ places = ((n * 10 ^ k : ℤ) : ℚ) / 10 ^ (places + k) := by
  rw [pow_add]
  push_cast
  field_simp

/-- Without its sign, a number is written to the nearest step. Beyond the places
that a double has, there are only zeros. -/
theorem magnitude_nearest (places m : ℕ) {e : ℤ} (he : -1074 ≤ e) :
    ∃ k : ℤ, Spells places (magnitude places m e) (k / 10 ^ places) ∧
      Nearest (10 ^ places) (m * 2 ^ e) k := by
  have hspells := magnitude_spells places m e
  rcases Nat.le_total places exactPlaces with h | h
  · rw [Nat.min_eq_left h] at hspells
    exact ⟨steps places m e, hspells, nearest_steps places m e⟩
  · rw [Nat.min_eq_right h] at hspells
    have hexact : (m * 2 ^ e : ℚ) = (steps exactPlaces m e : ℤ) / 10 ^ exactPlaces :=
      steps_exact he
    obtain ⟨more, rfl⟩ := Nat.exists_eq_add_of_le h
    rw [← Int.cast_natCast, div_pow10_add _ exactPlaces more] at hspells
    rw [hexact, div_pow10_add _ exactPlaces more]
    exact ⟨_, hspells, Nearest.self (by positivity) _⟩

/-- **What is written of a finite double** is a numeral with as many places as
asked for, and of all such numbers the nearest to the exact value of the double;
between two, the one with the even last digit. -/
theorem write_nearest {places : ℕ} {x : Float} {q : ℚ}
    (hq : (Value.ofFloat x).rational? = some q) :
    ∃ k : ℤ, SpellsSigned places (write places x) (k / 10 ^ places) ∧
      Nearest (10 ^ places) q k := by
  cases hv : Value.ofFloat x with
  | indefinite =>
    rw [hv] at hq
    cases hq
  | infinite negative =>
    rw [hv] at hq
    cases hq
  | finite negative m e =>
    obtain ⟨k, hspells, hnearest⟩ := magnitude_nearest places m (exponent_ofBits hv)
    rw [hv] at hq
    rw [write, hv]
    cases negative with
    | false =>
      cases hq
      exact ⟨k, .plain hspells, hnearest⟩
    | true =>
      cases hq
      refine ⟨-k, ?_, hnearest.neg⟩
      have hminus := SpellsSigned.minus hspells
      rwa [← neg_div, ← Int.cast_neg] at hminus

/-- Half of one, with its sign, goes to zero. -/
example : write 0 (Float.ofBits 0xBFE0000000000000) = "-0" := by decide +kernel

end PerfReport.Fixed
