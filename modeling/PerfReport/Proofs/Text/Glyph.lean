import Mathlib
import PerfReport.Text.Glyph

/-!
# Bytes decoded

What it means to read bytes as UTF-8, said without a decoder: the text begins
with the encoding of a character, or with a byte at which no encoding begins.
Every text can be read so in one way, and `Text.glyphs` finds it.

* `Glyph.leading_encode`: the encoding of a character is read as that character;
* `Glyph.leading_stray_or_encode`: nothing else is;
* `Text.decodes_iff`: so the decoder and the reading agree.
-/

namespace PerfReport

/-- The glyphs that the bytes of a text stand for. A byte is stray if no
character is encoded from there on. -/
inductive Text.Decodes : Text → List Glyph → Prop
  | nil : Decodes [] []
  | char {t : Text} {gs : List Glyph} (c : Char) (rest : Decodes t gs) :
      Decodes (String.utf8EncodeChar c ++ t) (.char c :: gs)
  | stray {t : Text} {gs : List Glyph} (b : UInt8)
      (h : ∀ c, ¬ String.utf8EncodeChar c <+: b :: t) (rest : Decodes t gs) :
      Decodes (b :: t) (.stray b :: gs)

namespace Glyph

/-! ## Well-formed sequences -/

/-- The sequences of one to four bytes, each with the number of its character. -/
inductive Sequence : Nat → Text → Prop
  | one {a : UInt8} (ha : a.toNat < 128) : Sequence a.toNat [a]
  | two {a b : UInt8} (ha : 194 ≤ a.toNat ∧ a.toNat ≤ 223) (hb : isSecond a b = true) :
      Sequence (a.toNat % 32 * 64 + low6 b) [a, b]
  | three {a b c : UInt8} (ha : 224 ≤ a.toNat ∧ a.toNat ≤ 239) (hb : isSecond a b = true)
      (hc : isTail c = true) :
      Sequence ((a.toNat % 16 * 64 + low6 b) * 64 + low6 c) [a, b, c]
  | four {a b c d : UInt8} (ha : 240 ≤ a.toNat ∧ a.toNat ≤ 244) (hb : isSecond a b = true)
      (hc : isTail c = true) (hd : isTail d = true) :
      Sequence (((a.toNat % 8 * 64 + low6 b) * 64 + low6 c) * 64 + low6 d) [a, b, c, d]

theorem Sequence.ne_nil {n : Nat} {t : Text} (h : Sequence n t) : t ≠ [] := by
  cases h <;> exact List.cons_ne_nil _ _

theorem isTail_iff (b : UInt8) : isTail b = true ↔ 128 ≤ b.toNat ∧ b.toNat ≤ 191 := by
  simp [isTail, UInt8.le_iff_toNat_le]

/-- The second byte keeps out what would be too long a sequence, half a
surrogate pair, and what is beyond the last character. -/
theorem isSecond_iff (a b : UInt8) : isSecond a b = true ↔
    128 ≤ b.toNat ∧ b.toNat ≤ 191 ∧ (a.toNat = 224 → 160 ≤ b.toNat) ∧
      (a.toNat = 237 → b.toNat ≤ 159) ∧ (a.toNat = 240 → 144 ≤ b.toNat) ∧
      (a.toNat = 244 → b.toNat ≤ 143) := by
  simp only [isSecond, isTail, ← UInt8.toNat_inj, UInt8.le_iff_toNat_le]
  split_ifs <;> simp_all <;> omega

/-! ## The decoder and the sequences -/

theorem leading_of_sequence {n : Nat} {a : UInt8} {t : Text} (h : Sequence n (a :: t))
    (rest : Text) : leading a (t ++ rest) = (.char (Char.ofNat n), t.length) := by
  cases h with
  | one ha => simp [leading.eq_def, UInt8.lt_iff_toNat_lt, ha]
  | two ha hb =>
    have hone : ¬ a.toNat < 128 := by omega
    simp [leading.eq_def, UInt8.lt_iff_toNat_lt, UInt8.le_iff_toNat_le, hone, ha, hb]
  | three ha hb hc =>
    have hone : ¬ a.toNat < 128 := by omega
    have htwo : ¬ a.toNat ≤ 223 := by omega
    simp [leading.eq_def, UInt8.lt_iff_toNat_lt, UInt8.le_iff_toNat_le, hone, htwo, ha, hb, hc]
  | four ha hb hc hd =>
    have hone : ¬ a.toNat < 128 := by omega
    have htwo : ¬ a.toNat ≤ 223 := by omega
    have hthree : ¬ a.toNat ≤ 239 := by omega
    simp [leading.eq_def, UInt8.lt_iff_toNat_lt, UInt8.le_iff_toNat_le, hone, htwo, hthree, ha,
      hb, hc, hd]

/-- A byte at which no sequence begins stands alone. -/
theorem leading_cases (a : UInt8) (rest : Text) :
    leading a rest = (.stray a, 0) ∨ ∃ n t more, rest = t ++ more ∧ Sequence n (a :: t) ∧
      leading a rest = (.char (Char.ofNat n), t.length) := by
  fun_cases leading a rest with
  | case1 rest h =>
    exact .inr ⟨a.toNat, [], rest, rfl, .one (UInt8.lt_iff_toNat_lt.mp h), rfl⟩
  | case4 _ b more hb ha =>
    simp only [Bool.not_eq_true, Bool.not_eq_false', Bool.and_eq_true, decide_eq_true_eq,
      UInt8.le_iff_toNat_le] at hb ha
    exact .inr ⟨_, [b], more, rfl, .two ha hb, rfl⟩
  | case7 _ b hb _ c more hc ha =>
    simp only [Bool.not_eq_true, Bool.not_eq_false', Bool.and_eq_true, decide_eq_true_eq,
      UInt8.le_iff_toNat_le] at hb hc ha
    exact .inr ⟨_, [b, c], more, rfl, .three ha hb hc, rfl⟩
  | case9 _ b hb _ c hc _ d more h =>
    simp only [Bool.not_eq_true, Bool.not_eq_false', Bool.and_eq_true, decide_eq_true_eq,
      UInt8.le_iff_toNat_le] at hb hc h
    obtain ⟨⟨hd, hlow⟩, hhigh⟩ := h
    exact .inr ⟨_, [b, c, d], more, rfl, .four ⟨hlow, hhigh⟩ hb hc hd, rfl⟩
  | case2 | case3 | case5 | case6 | case8 | case10 => exact .inl rfl

/-! ## The encoder and the sequences -/

theorem isTail_of_isSecond {a b : UInt8} (h : isSecond a b = true) : isTail b = true := by
  rw [isSecond_iff] at h
  exact (isTail_iff b).mpr ⟨h.1, h.2.1⟩

theorem toNat_of_isTail {b : UInt8} (h : isTail b = true) : b.toNat = 128 + low6 b ∧ low6 b < 64 := by
  rw [isTail_iff] at h
  simp only [low6]
  omega

theorem Sequence.isValidChar {n : Nat} {t : Text} (h : Sequence n t) : n.isValidChar := by
  cases h with
  | one ha => exact .inl (by omega)
  | two ha hb =>
    have hlow := toNat_of_isTail (isTail_of_isSecond hb)
    exact .inl (by omega)
  | three ha hb hc =>
    have hlow := toNat_of_isTail (isTail_of_isSecond hb)
    have hlower := toNat_of_isTail hc
    rw [isSecond_iff] at hb
    rw [Nat.isValidChar]
    omega
  | four ha hb hc hd =>
    have hlow := toNat_of_isTail (isTail_of_isSecond hb)
    have hlower := toNat_of_isTail hc
    have hlowest := toNat_of_isTail hd
    rw [isSecond_iff] at hb
    rw [Nat.isValidChar]
    omega

theorem Sequence.toNat_ofNat {n : Nat} {t : Text} (h : Sequence n t) :
    (Char.ofNat n).toNat = n := by
  rw [Char.toNat_ofNat, if_pos h.isValidChar]

/-- The payload of a sequence spreads over its bytes again. -/
theorem encode_of_sequence {n : Nat} {t : Text} (h : Sequence n t) :
    String.utf8EncodeChar (Char.ofNat n) = t := by
  have hn : (Char.ofNat n).val.toNat = n := h.toNat_ofNat
  rw [String.utf8EncodeChar]
  simp only [hn]
  cases h with
  | @one a ha =>
    rw [if_pos (by omega), UInt8.ofNat_toNat]
  | @two a b ha hb =>
    have hlow := toNat_of_isTail (isTail_of_isSecond hb)
    rw [if_neg (by omega), if_pos (by omega)]
    simp only [List.cons.injEq, ← UInt8.toNat_inj, UInt8.toNat_ofNat', and_true]
    omega
  | @three a b c ha hb hc =>
    have hlow := toNat_of_isTail (isTail_of_isSecond hb)
    have hlower := toNat_of_isTail hc
    rw [isSecond_iff] at hb
    rw [if_neg (by omega), if_neg (by omega), if_pos (by omega)]
    simp only [List.cons.injEq, ← UInt8.toNat_inj, UInt8.toNat_ofNat', and_true]
    omega
  | @four a b c d ha hb hc hd =>
    have hlow := toNat_of_isTail (isTail_of_isSecond hb)
    have hlower := toNat_of_isTail hc
    have hlowest := toNat_of_isTail hd
    rw [isSecond_iff] at hb
    rw [if_neg (by omega), if_neg (by omega), if_neg (by omega)]
    simp only [List.cons.injEq, ← UInt8.toNat_inj, UInt8.toNat_ofNat', and_true]
    omega

theorem toNat_tailByte (n : Nat) : (UInt8.ofNat (n % 64 + 128)).toNat = n % 64 + 128 := by
  rw [UInt8.toNat_ofNat']
  omega

theorem isTail_tailByte (n : Nat) : isTail (UInt8.ofNat (n % 64 + 128)) = true := by
  rw [isTail_iff, toNat_tailByte]
  omega

theorem low6_tailByte (n : Nat) : low6 (UInt8.ofNat (n % 64 + 128)) = n % 64 := by
  rw [low6, toNat_tailByte]
  omega

/-- The bytes of a character are within the bounds that the decoder tests. -/
theorem sequence_encode (c : Char) : Sequence c.toNat (String.utf8EncodeChar c) := by
  have hvalid : c.toNat < 55296 ∨ 57343 < c.toNat ∧ c.toNat < 1114112 := c.valid
  rw [String.utf8EncodeChar]
  simp only [show c.val.toNat = c.toNat from rfl]
  generalize c.toNat = n at hvalid ⊢
  by_cases hone : n ≤ 127
  · have ha : (UInt8.ofNat n).toNat = n := by
      rw [UInt8.toNat_ofNat']
      omega
    have h := Sequence.one (a := UInt8.ofNat n) (by omega)
    rw [ha] at h
    rwa [if_pos hone]
  by_cases htwo : n ≤ 2047
  · have ha : (UInt8.ofNat (n / 64 % 32 + 192)).toNat = n / 64 % 32 + 192 := by
      rw [UInt8.toNat_ofNat']
      omega
    have hb := toNat_tailByte n
    have hsecond : isSecond (UInt8.ofNat (n / 64 % 32 + 192)) (UInt8.ofNat (n % 64 + 128)) :=
      (isSecond_iff _ _).mpr (by omega)
    have h := Sequence.two (by omega) hsecond
    have hn : (n / 64 % 32 + 192) % 32 * 64 + n % 64 = n := by omega
    rw [ha, low6_tailByte, hn] at h
    rwa [if_neg hone, if_pos htwo]
  by_cases hthree : n ≤ 65535
  · have ha : (UInt8.ofNat (n / 4096 % 16 + 224)).toNat = n / 4096 % 16 + 224 := by
      rw [UInt8.toNat_ofNat']
      omega
    have hb := toNat_tailByte (n / 64)
    have hsecond :
        isSecond (UInt8.ofNat (n / 4096 % 16 + 224)) (UInt8.ofNat (n / 64 % 64 + 128)) :=
      (isSecond_iff _ _).mpr (by omega)
    have h := Sequence.three (by omega) hsecond (isTail_tailByte n)
    have hn : ((n / 4096 % 16 + 224) % 16 * 64 + n / 64 % 64) * 64 + n % 64 = n := by omega
    rw [ha, low6_tailByte, low6_tailByte, hn] at h
    rwa [if_neg hone, if_neg htwo, if_pos hthree]
  · have ha : (UInt8.ofNat (n / 262144 % 8 + 240)).toNat = n / 262144 % 8 + 240 := by
      rw [UInt8.toNat_ofNat']
      omega
    have hb := toNat_tailByte (n / 4096)
    have hsecond :
        isSecond (UInt8.ofNat (n / 262144 % 8 + 240)) (UInt8.ofNat (n / 4096 % 64 + 128)) :=
      (isSecond_iff _ _).mpr (by omega)
    have h := Sequence.four (by omega) hsecond (isTail_tailByte (n / 64)) (isTail_tailByte n)
    have hn : (((n / 262144 % 8 + 240) % 8 * 64 + n / 4096 % 64) * 64 + n / 64 % 64) * 64
        + n % 64 = n := by omega
    rw [ha, low6_tailByte, low6_tailByte, low6_tailByte, hn] at h
    rwa [if_neg hone, if_neg htwo, if_neg hthree]

/-! ## The decoder and the encoder -/

/-- **The encoding of a character is read as that character.** -/
theorem leading_encode (c : Char) : ∃ a t, String.utf8EncodeChar c = a :: t ∧
    ∀ rest, leading a (t ++ rest) = (.char c, t.length) := by
  have h := sequence_encode c
  obtain ⟨a, t, hbytes⟩ := List.exists_cons_of_ne_nil h.ne_nil
  rw [hbytes] at h
  refine ⟨a, t, hbytes, fun rest => ?_⟩
  rw [leading_of_sequence h, Char.ofNat_toNat]

theorem bytes_ne_nil (g : Glyph) : g.bytes ≠ [] := by
  cases g with
  | char c => exact (sequence_encode c).ne_nil
  | stray b => exact List.cons_ne_nil b []

/-- **Nothing else is:** a byte is read alone exactly if no encoding begins
with it. -/
theorem leading_stray_or_encode (a : UInt8) (rest : Text) :
    (leading a rest = (.stray a, 0) ∧ ∀ c, ¬ String.utf8EncodeChar c <+: a :: rest) ∨
    ∃ c t more, rest = t ++ more ∧ String.utf8EncodeChar c = a :: t ∧
      leading a rest = (.char c, t.length) := by
  rcases leading_cases a rest with h | ⟨n, t, more, hrest, hseq, h⟩
  · refine .inl ⟨h, fun c ⟨more, hc⟩ => ?_⟩
    obtain ⟨b, t, hbytes, hread⟩ := leading_encode c
    rw [hbytes, List.cons_append] at hc
    obtain ⟨rfl, rfl⟩ := List.cons.inj hc
    rw [hread] at h
    cases h
  · exact .inr ⟨Char.ofNat n, t, more, hrest, encode_of_sequence hseq, h⟩

end Glyph

namespace Text

theorem glyphsAfter_zero (b : UInt8) (t : Text) (done : List Glyph) :
    glyphsAfter 0 (b :: t) done =
      glyphsAfter (Glyph.leading b t).2 t ((Glyph.leading b t).1 :: done) := rfl

/-- What is done stays in front; what is skipped is not read. -/
theorem glyphsAfter_eq (k : Nat) (t : Text) (done : List Glyph) :
    glyphsAfter k t done = done.reverse ++ glyphs (t.drop k) := by
  induction t generalizing k done with
  | nil => cases k <;> simp [glyphs, glyphsAfter]
  | cons b t ih =>
    cases k with
    | zero =>
      rw [List.drop_zero, glyphs, glyphsAfter_zero, glyphsAfter_zero, ih, ih]
      simp
    | succ k => rw [glyphsAfter, ih, List.drop_succ_cons]

theorem glyphs_cons (a : UInt8) (t : Text) :
    glyphs (a :: t) = (Glyph.leading a t).1 :: glyphs (t.drop (Glyph.leading a t).2) := by
  rw [glyphs, glyphsAfter_zero, glyphsAfter_eq]
  rfl

theorem decodes_glyphs (t : Text) : Decodes t t.glyphs := by
  -- A character takes more than the byte that it begins with.
  induction hn : t.length using Nat.strong_induction_on generalizing t with
  | _ n ih =>
    cases t with
    | nil => exact .nil
    | cons a t =>
      rw [glyphs_cons]
      rcases Glyph.leading_stray_or_encode a t with ⟨hread, hnone⟩ | ⟨c, bytes, more, rfl, hc, hread⟩
      · rw [hread, List.drop_zero]
        exact .stray a hnone (ih t.length (by simp [← hn]) t rfl)
      · rw [hread, List.drop_left, ← List.cons_append, ← hc]
        refine .char c (ih more.length ?_ more rfl)
        rw [← hn, List.length_cons, List.length_append]
        omega

theorem Decodes.eq_glyphs {t : Text} {gs : List Glyph} (h : Decodes t gs) : gs = t.glyphs := by
  induction h with
  | nil => rfl
  | @char t gs c _ ih =>
    obtain ⟨a, bytes, hbytes, hread⟩ := Glyph.leading_encode c
    rw [hbytes, List.cons_append, glyphs_cons, hread, List.drop_left, ih]
  | @stray t gs b hb _ ih =>
    rcases Glyph.leading_stray_or_encode b t with ⟨hread, -⟩ | ⟨c, bytes, more, ht, hbytes, -⟩
    · rw [glyphs_cons, hread, List.drop_zero, ih]
    · exact absurd ⟨more, by rw [hbytes, ht, List.cons_append]⟩ (hb c)

/-- **Every text is read in one way,** and the decoder reads it so. -/
theorem decodes_iff (t : Text) (gs : List Glyph) : Decodes t gs ↔ gs = t.glyphs :=
  ⟨Decodes.eq_glyphs, fun h => h ▸ decodes_glyphs t⟩

end Text

end PerfReport
