import Mathlib.Data.List.TakeWhile
import PerfReport.Proofs.Number.Numeral
import PerfReport.Yaml.Scalar

/-!
# Whole numbers in documents

The numeral of a whole number is no word and no date, and no zero in front of
it marks a base.

* `Whole.ofText?_ofInt`: the numeral spells its number;
* `Sense.ofText_ofInt`: a plain scalar that is the numeral stands for it.
-/

namespace PerfReport

/-! ## First digits -/

theorem Text.exists_numeralOnto_cons {n : Nat} (hn : 0 < n) (tail : Text) :
    ∃ b t, numeralOnto n tail = b :: t ∧ b ≠ 48 := by
  fun_induction numeralOnto n tail with
  | case1 n tail h =>
    refine ⟨digit n, tail, rfl, ?_⟩
    intro hzero
    have hnat := Text.toNat_digit h
    rw [hzero] at hnat
    have hval : (48 : UInt8).toNat = 48 := rfl
    omega
  | case2 n tail h ih => exact ih (by omega)

namespace Yaml

/-! ## Numerals -/

namespace Whole

theorem digitIn?_ten {b : UInt8} (h : Text.isDigit b = true) :
    digitIn? 10 b = some (Text.digitValue b) := by
  have hle : b.toNat ≤ 57 := by
    have hb : b ≤ 57 := by simpa using (Bool.and_eq_true_iff.mp h).2
    exact UInt8.le_iff_toNat_le.mp hb
  have hvalue : RealLiteral.hexValue b = Text.digitValue b := by
    simp [RealLiteral.hexValue, h]
  have hlt : Text.digitValue b < 10 := by
    rw [Text.digitValue]
    omega
  simp [digitIn?, RealLiteral.isHexDigit, h, hvalue, hlt]

theorem valueIn?_ten {t : Text} (h : ∀ b ∈ t, Text.isDigit b = true) :
    valueIn? 10 t = some (Text.numeralUpTo (pow2 64) t) := by
  suffices hfrom : ∀ n, t.foldlM (fun n b => (digitIn? 10 b).map (grow 10 n)) n =
      some (t.foldl (Text.growUpTo (pow2 64)) n) from hfrom 0
  induction t with
  | nil => exact fun n => rfl
  | cons b t ih =>
    obtain ⟨hb, ht⟩ := List.forall_mem_cons.mp h
    intro n
    rw [List.foldlM_cons, digitIn?_ten hb, List.foldl_cons]
    exact ih ht _

theorem magnitude?_ofNat {n : Nat} (hn : n < pow2 64) : magnitude? (Text.ofNat n) = some n := by
  rcases Nat.eq_zero_or_pos n with rfl | hpos
  · have hzero : Text.ofNat 0 = [48] := by
      rw [Text.ofNat, Text.numeralOnto]
      rfl
    rw [hzero]
    rfl
  · have hvalue := valueIn?_ten fun b hb => Text.isDigit_of_mem_ofNat (n := n) hb
    rw [Text.numeralUpTo_ofNat hn] at hvalue
    obtain ⟨b, t, ht, hb⟩ := Text.exists_numeralOnto_cons hpos []
    have hcons : Text.ofNat n = b :: t := ht
    rw [hcons] at hvalue ⊢
    -- The base is ten unless the first byte is a zero.
    rw [magnitude?, hvalue]
    all_goals grind

/-- **Numerals spell their numbers.** -/
theorem ofText?_ofInt {n : Int} (h : Int64.InRange n) : ofText? (Text.ofInt n) = some n := by
  have hlimit : pow2 64 = 18446744073709551616 := rfl
  have hrange (signed negative : Bool) {m : Nat} (hm : (if negative then -(m : Int) else m) = n) :
      inRange? signed negative m = some n := by
    have hn : Int64.least ≤ n ∧ n ≤ Int64.greatest := h
    rw [inRange?, hm, if_pos hn]
  simp only [Int64.InRange, Int64.least_eq, Int64.greatest_eq] at h
  cases n with
  | ofNat k =>
    have hk : k < pow2 64 := by
      have hle : (k : Int) ≤ 9223372036854775807 := h.2
      omega
    rw [Text.ofInt, ofText?, signed?, Text.takeSign_ofNat]
    simp only [magnitude?_ofNat hk, Option.bind_some]
    exact hrange _ _ rfl
  | negSucc k =>
    have hk : k + 1 < pow2 64 := by omega
    show (magnitude? (Text.ofNat (k + 1))).bind _ = _
    rw [magnitude?_ofNat hk, Option.bind_some]
    exact hrange _ _ rfl

end Whole

/-! ## Dates -/

theorem Date.accepts_ofInt (n : Int) : Date.accepts (Text.ofInt n) = false := by
  suffices hday : Date.day? (Text.ofInt n) = none by rw [Date.accepts, hday]
  cases n with
  | ofNat k =>
    have hall : (Text.ofNat k).takeWhile Text.isDigit = Text.ofNat k :=
      List.takeWhile_eq_self_iff.mpr fun b hb => Text.isDigit_of_mem_ofNat hb
    rw [Text.ofInt, Date.day?, hall]
    by_cases hlen : (Text.ofNat k).length = 4
    · have hrest : (Text.ofNat k).drop 4 = [] := List.drop_eq_nil_of_le (by omega)
      simp [hlen, hrest, Date.past?]
    · simp [hlen]
  | negSucc k => rfl

namespace Sense

/-! ## Words -/

/-- What no numeral is spelled like. -/
def isWordText (t : Text) : Bool := t.isEmpty || t.any fun b => !Text.isNumeralByte b

theorem isOneOf_ofInt (n : Int) {words : List String}
    (hwords : (words.all fun w => isWordText (Text.ofString w)) = true) :
    isOneOf (Text.ofInt n) words = false := by
  rw [isOneOf, List.any_eq_false]
  intro w hw heq
  have hword := List.all_eq_true.mp hwords w hw
  rw [← beq_iff_eq.mp heq, isWordText, Bool.or_eq_true, List.isEmpty_iff, List.any_eq_true] at hword
  rcases hword with hempty | ⟨b, hb, hno⟩
  · exact Text.ofInt_ne_nil n hempty
  · rw [Text.isNumeralByte_of_mem_ofInt hb] at hno
    cases hno

theorem word?_ofInt (n : Int) : word? (Text.ofInt n) = none := by
  have hnull : isNull (Text.ofInt n) = false := isOneOf_ofInt n (by decide)
  have hother {words : List String}
      (hwords : (words.all fun w => isWordText (Text.ofString w)) = true) :
      ¬ isOneOf (Text.ofInt n) words = true := by
    rw [isOneOf_ofInt n hwords]
    exact Bool.false_ne_true
  rw [word?, hnull, if_neg Bool.false_ne_true, if_neg (hother (by decide)),
    if_neg (hother (by decide)), if_neg (hother (by decide)), if_neg (hother (by decide)),
    if_neg (hother (by decide))]

/-! ## Senses -/

theorem ofNumeral_ofInt {n : Int} (h : Int64.InRange n) : ofNumeral (Text.ofInt n) = .whole n := by
  have hbare : (Text.ofInt n).filter (· != 95) = Text.ofInt n := by
    refine List.filter_eq_self.mpr ?_
    intro b hb
    have hbyte := Text.isNumeralByte_of_mem_ofInt hb
    rw [bne_iff_ne]
    rintro rfl
    cases hbyte
  rw [ofNumeral, Date.accepts_ofInt, if_neg Bool.false_ne_true]
  simp only [hbare, Whole.ofText?_ofInt h]

/-- **Whole numbers in documents.**  The numeral of a 64-bit number stands for
this number. -/
theorem ofText_ofInt {n : Int} (h : Int64.InRange n) : ofText (Text.ofInt n) = .whole n := by
  rw [ofText.eq_def, word?_ofInt]
  cases ht : Text.ofInt n with
  | nil => exact absurd ht (Text.ofInt_ne_nil n)
  | cons b t =>
    have hbyte : Text.isNumeralByte b = true :=
      Text.isNumeralByte_of_mem_ofInt (n := n) (ht ▸ List.mem_cons_self)
    have hfirst : (Text.isDigit b || b == 43 || b == 45) = true := by
      rw [Text.isNumeralByte, Bool.or_eq_true] at hbyte
      rcases hbyte with hb | hb <;> simp [hb]
    show (if _ then _ else _) = _
    rw [if_pos hfirst, ← ht, ofNumeral_ofInt h]

end Sense

end Yaml

end PerfReport
