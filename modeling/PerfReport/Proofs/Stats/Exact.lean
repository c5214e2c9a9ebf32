import Mathlib
import PerfReport.Proofs.Aggregate.Columns
import PerfReport.Proofs.Number.Whole

/-!
# Moments in exact arithmetic

Read with rational numbers, the running moments of a column are what their
names say: the number of values, their mean, and the sum of the squared
deviations from it. One value more and two parts joined are two different
recurrences, and both agree with this closed form.

* `sum_squares_from`: squared deviations from any point, by the power sums;
* `update_ofValues`: one value more;
* `merge_ofValues`: two parts joined;
* `exactLaw`: both, and the sum, as a law of columns.
-/

namespace PerfReport

/-- The largest finite double as a fraction. -/
def largestFinite : ℚ := (2 ^ 53 - 1) * 2 ^ 971

/-- Rational numbers compute without rounding. -/
instance : Arith ℚ where
  zero := 0
  ofCount n := n.toNat
  ofWhole n := n.toInt
  toWhole? x := if x.den = 1 ∧ Int64.InRange x.num then some (.ofInt x.num) else none
  floor x := ⌊x⌋
  greater := max
  lesser := min
  bottom := -largestFinite
  top := largestFinite
  write x := Text.ofInt x.num ++ "/" ++ Text.ofNat x.den

theorem ofWhole_of_toWhole? {x : ℚ} {n : Int64} (h : Arith.toWhole? x = some n) :
    Arith.ofWhole n = x := by
  have h : (if x.den = 1 ∧ Int64.InRange x.num then some (Int64.ofInt x.num) else none) =
      some n := h
  split at h
  · next hx =>
    cases h
    have hnum : (Int64.ofInt x.num).toInt = x.num := by
      have hrange := hx.2
      simp only [Int64.InRange, Int64.least_eq, Int64.greatest_eq] at hrange
      exact Int64.toInt_ofInt_of_le (by omega) (by omega)
    show (((Int64.ofInt x.num).toInt : ℤ) : ℚ) = x
    rw [hnum]
    exact (Rat.den_eq_one_iff x).mp hx.1
  · cases h

/-! ## Closed forms -/

def average (xs : List ℚ) : ℚ := xs.sum / xs.length

/-- The sum of the squared distances of values to a point. -/
def squaresFrom (a : ℚ) (xs : List ℚ) : ℚ := (xs.map fun x => (x - a) ^ 2).sum

theorem sum_squares_from (a : ℚ) (xs : List ℚ) :
    squaresFrom a xs = squaresFrom 0 xs - 2 * a * xs.sum + xs.length * a ^ 2 := by
  induction xs with
  | nil => simp [squaresFrom]
  | cons x xs ih =>
    simp only [squaresFrom, List.map_cons, List.sum_cons, List.length_cons] at ih ⊢
    rw [ih]
    push_cast
    ring

theorem squaresFrom_append (a : ℚ) (xs ys : List ℚ) :
    squaresFrom a (xs ++ ys) = squaresFrom a xs + squaresFrom a ys := by
  simp [squaresFrom]

theorem length_mul_average (xs : List ℚ) : xs.length * average xs = xs.sum := by
  unfold average
  cases xs with
  | nil => simp
  | cons x xs =>
    have hn : ((x :: xs).length : ℚ) ≠ 0 := Nat.cast_ne_zero.mpr (by simp)
    field_simp

/-- The squares around the mean are the least: around any other point there
is the distance of the mean more for every value. -/
theorem squaresFrom_eq (a : ℚ) (xs : List ℚ) :
    squaresFrom a xs = squaresFrom (average xs) xs + xs.length * (average xs - a) ^ 2 := by
  rw [sum_squares_from a, sum_squares_from (average xs), ← length_mul_average xs]
  ring

namespace Moments

/-- The moments of these values. -/
def ofValues (xs : List ℚ) : Moments ℚ :=
  ⟨UInt64.ofNat xs.length, average xs, squaresFrom (average xs) xs⟩

theorem ofCount_ofNat {n : Nat} (hn : n < UInt64.size) :
    (Arith.ofCount (UInt64.ofNat n) : ℚ) = n := by
  show (((UInt64.ofNat n).toNat : ℕ) : ℚ) = n
  rw [UInt64.toNat_ofNat_of_lt' hn]

theorem toNat_count_ofValues {xs : List ℚ} (hn : xs.length < UInt64.size) :
    (ofValues xs).count.toNat = xs.length :=
  UInt64.toNat_ofNat_of_lt' hn

theorem count_ofValues_ne_zero {xs : List ℚ} (hn : xs.length < UInt64.size) (hxs : xs ≠ []) :
    (ofValues xs).count ≠ 0 := by
  intro hzero
  have hlength := congrArg UInt64.toNat hzero
  rw [toNat_count_ofValues hn] at hlength
  exact hxs (List.length_eq_zero_iff.mp hlength)

theorem ofValues_nil : ofValues [] = fresh := by
  have hmean : average [] = 0 := by simp [average]
  rw [ofValues, hmean]
  rfl

/-- **One value more.** -/
theorem update_ofValues {xs : List ℚ} (x : ℚ) (hn : xs.length + 1 < UInt64.size) :
    (ofValues xs).update x = ofValues (xs ++ [x]) := by
  have hcount : UInt64.ofNat xs.length + 1 = UInt64.ofNat (xs ++ [x]).length := by
    simp [UInt64.ofNat_add]
  have hlength : ((xs ++ [x]).length : ℚ) = xs.length + 1 := by simp
  have hpos : (xs.length + 1 : ℚ) ≠ 0 := by positivity
  have hdivisor : (Arith.ofCount (UInt64.ofNat xs.length + 1) : ℚ) = xs.length + 1 := by
    rw [hcount, ofCount_ofNat (by simpa using hn), hlength]
  have hmean : average xs + (x - average xs) / (xs.length + 1) = average (xs ++ [x]) := by
    rw [average.eq_def (xs ++ [x]), hlength, List.sum_append, List.sum_singleton,
      ← length_mul_average xs]
    field_simp
    ring
  have hsquares : squaresFrom (average xs) xs + (x - average xs) * (x - average (xs ++ [x])) =
      squaresFrom (average (xs ++ [x])) (xs ++ [x]) := by
    rw [squaresFrom_append, squaresFrom_eq (average (xs ++ [x])) xs, ← hmean]
    simp only [squaresFrom, List.map_cons, List.map_nil, List.sum_singleton]
    field_simp
    ring
  show (⟨UInt64.ofNat xs.length + 1,
    average xs + (x - average xs) / Arith.ofCount (UInt64.ofNat xs.length + 1),
    squaresFrom (average xs) xs + (x - average xs) * (x - (average xs + (x - average xs) /
      Arith.ofCount (UInt64.ofNat xs.length + 1)))⟩ : Moments ℚ) = _
  rw [hdivisor, hmean, hsquares, hcount, ofValues]

/-- **Two parts joined.**  An empty part is passed over; otherwise the mean
moves towards the other part by its share of the values. -/
theorem merge_ofValues {xs ys : List ℚ} (hn : xs.length + ys.length < UInt64.size) :
    (ofValues xs).merge (ofValues ys) = ofValues (xs ++ ys) := by
  rcases eq_or_ne ys [] with rfl | hys
  · rw [List.append_nil]
    exact if_pos rfl
  rcases eq_or_ne xs [] with rfl | hxs
  · rw [List.nil_append]
    exact (if_neg (count_ofValues_ne_zero (by omega) hys)).trans (if_pos rfl)
  have hcount : UInt64.ofNat xs.length + UInt64.ofNat ys.length =
      UInt64.ofNat (xs ++ ys).length := by
    simp [UInt64.ofNat_add]
  have hlength : ((xs ++ ys).length : ℚ) = xs.length + ys.length := by simp
  have hpos : (xs.length + ys.length : ℚ) ≠ 0 := by
    have : 0 < xs.length := List.length_pos_iff.mpr hxs
    positivity
  have hmean : average xs + (average ys - average xs) * (ys.length / (xs.length + ys.length)) =
      average (xs ++ ys) := by
    rw [average.eq_def (xs ++ ys), hlength, List.sum_append, ← length_mul_average xs,
      ← length_mul_average ys]
    field_simp
    ring
  have hsquares : squaresFrom (average xs) xs + (squaresFrom (average ys) ys +
      (average ys - average xs) * (average ys - average xs) * xs.length *
        (ys.length / (xs.length + ys.length))) = squaresFrom (average (xs ++ ys)) (xs ++ ys) := by
    rw [squaresFrom_append, squaresFrom_eq (average (xs ++ ys)) xs,
      squaresFrom_eq (average (xs ++ ys)) ys, ← hmean]
    field_simp
    ring
  rw [merge, if_neg (count_ofValues_ne_zero (by omega) hys),
    if_neg (count_ofValues_ne_zero (by omega) hxs)]
  show (⟨UInt64.ofNat xs.length + UInt64.ofNat ys.length,
    average xs + (average ys - average xs) * (Arith.ofCount (UInt64.ofNat ys.length) /
      Arith.ofCount (UInt64.ofNat xs.length + UInt64.ofNat ys.length)),
    squaresFrom (average xs) xs + (squaresFrom (average ys) ys +
      (average ys - average xs) * (average ys - average xs) *
        Arith.ofCount (UInt64.ofNat xs.length) * (Arith.ofCount (UInt64.ofNat ys.length) /
          Arith.ofCount (UInt64.ofNat xs.length + UInt64.ofNat ys.length)))⟩ : Moments ℚ) = _
  have hleft : (Arith.ofCount (UInt64.ofNat xs.length) : ℚ) = xs.length :=
    ofCount_ofNat (by omega)
  have hright : (Arith.ofCount (UInt64.ofNat ys.length) : ℚ) = ys.length :=
    ofCount_ofNat (by omega)
  have hboth : (Arith.ofCount (UInt64.ofNat (xs ++ ys).length) : ℚ) = xs.length + ys.length := by
    rw [ofCount_ofNat (by simpa using hn), hlength]
  rw [hcount, hleft, hright, hboth, hmean, hsquares, ofValues]

theorem sampleVariance_ofValues {xs : List ℚ} (hn : xs.length < UInt64.size)
    (hxs : 2 ≤ xs.length) :
    (ofValues xs).sampleVariance = (ofValues xs).m2 / (xs.length - 1) := by
  have hcount := toNat_count_ofValues hn
  have htwo : ¬ (ofValues xs).count < 2 := by
    rw [UInt64.lt_iff_toNat_lt, hcount]
    exact Nat.not_lt.mpr hxs
  have hone : (1 : UInt64) ≤ (ofValues xs).count := by
    rw [UInt64.le_iff_toNat_le, hcount]
    exact Nat.le_of_lt hxs
  have hdivisor : (Arith.ofCount ((ofValues xs).count - 1) : ℚ) = xs.length - 1 := by
    show ((((ofValues xs).count - 1).toNat : ℕ) : ℚ) = xs.length - 1
    rw [UInt64.toNat_sub_of_le _ _ hone, hcount]
    push_cast [Nat.le_of_lt hxs]
    rfl
  rw [sampleVariance, if_neg htwo, hdivisor]

/-- The order of the values does not matter. -/
theorem ofValues_perm {xs ys : List ℚ} (h : xs.Perm ys) : ofValues xs = ofValues ys := by
  have hmean : average xs = average ys := by rw [average, average, h.sum_eq, h.length_eq]
  have hsquares : squaresFrom (average ys) xs = squaresFrom (average ys) ys :=
    (h.map fun x => (x - average ys) ^ 2).sum_eq
  rw [ofValues, ofValues, h.length_eq, hmean, hsquares]

end Moments

/-- Sum and moments are those of the values, as long as these can be counted. -/
def ExactColumn (c : Column ℚ) (m : Moments ℚ) (xs : List ℚ) : Prop :=
  xs.length < UInt64.size → c.sum = xs.sum ∧ m = .ofValues xs

theorem exactLaw : ColumnLaw ExactColumn where
  fresh _ := ⟨rfl, Moments.ofValues_nil.symm⟩
  add x h hn := by
    rw [List.length_append] at hn
    obtain ⟨hsum, rfl⟩ := h (by omega)
    refine ⟨?_, Moments.update_ofValues x hn⟩
    rw [Column.add_eq, List.sum_append, List.sum_singleton, ← hsum]
  merge h h' hn := by
    rw [List.length_append] at hn
    obtain ⟨hsum, rfl⟩ := h (by omega)
    obtain ⟨hsum', rfl⟩ := h' (by omega)
    refine ⟨?_, Moments.merge_ofValues hn⟩
    rw [Column.merge_eq, List.sum_append, ← hsum, ← hsum']

end PerfReport
