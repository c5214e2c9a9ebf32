import PerfReport.Proofs.Aggregate.Collected

/-!
# What is accepted

A record that fits an aggregate is refused for one reason only, a total of
whole numbers out of the 64-bit range. Lines are therefore accepted to the last
one if each of them is a record and no total leaves the range on the way, and
another aggregate of the same shape is accepted if the totals of both together
are in range.

* `Collected.exists_enter_iff`: one entry more;
* `Collected.exists_foldlM_ingest_iff`: several lines more;
* `Collected.exists_merge_iff`: another aggregate more.
-/

namespace PerfReport

open PerfReport.Int64

namespace Entry

/-- The totals of whole numbers are all in range. -/
def TotalsFit (arity : Nat) (kind : NumericKind) (es : List Entry) : Prop :=
  kind = .integer → ∀ i < arity, InRange (columnTotal (es.map wholes) i)

instance (arity : Nat) (kind : NumericKind) (es : List Entry) :
    Decidable (TotalsFit arity kind es) :=
  inferInstanceAs (Decidable (_ → _))

/-- What the lines enter; one that is no record enters nothing. -/
def ofLines (arity : Nat) (kind : NumericKind) (lines : List Text) : List Entry :=
  lines.filterMap fun line => (ofLine arity kind line).toOption

theorem ofLines_cons {arity : Nat} {kind : NumericKind} {line : Text} {e : Entry}
    (h : ofLine arity kind line = .ok e) (rest : List Text) :
    ofLines arity kind (line :: rest) = e :: ofLines arity kind rest := by
  simp [ofLines, h, Except.toOption]

end Entry

namespace Aggregate

variable {agg agg' part : Aggregate Float} {e : Entry} {es es' : List Entry}

theorem exists_firstOverflow_iff (arity : Nat) (records : List (List Int64)) :
    (∃ i, FirstOverflow arity records i) ↔ ∃ i < arity, ¬ InRange (columnTotal records i) := by
  constructor
  · rintro ⟨i, hi, hout, -⟩
    exact ⟨i, hi, hout⟩
  · intro h
    obtain ⟨hi, hout⟩ := Nat.find_spec h
    refine ⟨Nat.find h, hi, hout, ?_⟩
    intro j hj
    by_contra hout'
    exact Nat.find_min h hj ⟨hj.trans hi, hout'⟩

/-- The totals so far are kept, so they are in range. -/
theorem Collected.totalsFit (h : Collected agg es) : Entry.TotalsFit agg.arity agg.kind es := by
  intro hk i _
  rw [← (h.tallied hk).total i]
  exact inRange_toInt _

theorem Collected.exists_enter_iff (h : Collected agg es) (hf : e.Fits agg.arity agg.kind) :
    (∃ agg', agg.enter e = .ok agg') ↔ Entry.TotalsFit agg.arity agg.kind (es ++ [e]) := by
  cases e with
  | real record => exact iff_of_true ⟨_, rfl⟩ fun hk => absurd hk hf.1
  | whole values =>
    have herror : (∃ x, agg.addIntegers values = .error x) ↔
        ∃ i, FirstOverflow agg.arity (es.map Entry.wholes ++ [values]) i := by
      simp only [(h.tallied hf.1).addIntegers_eq_error_iff hf.2]
      constructor
      · rintro ⟨-, i, hi, -⟩
        exact ⟨i, hi⟩
      · rintro ⟨i, hi⟩
        exact ⟨_, i, hi, rfl⟩
    rw [enter, exists_ok_iff, herror, exists_firstOverflow_iff, Entry.TotalsFit, List.map_append]
    simp [hf.1, Entry.wholes]

/-! ## Lines -/

theorem Collected.ingest_ok {line : Text} (h : Collected agg es)
    (hi : agg.ingest line = .ok agg') : ∃ e, Entry.ofLine agg.arity agg.kind line = .ok e ∧
      Collected agg' (es ++ [e]) ∧ agg'.arity = agg.arity ∧ agg'.kind = agg.kind := by
  have hbind := hi
  rw [ingest_eq_enter] at hbind
  obtain ⟨e, hl, he⟩ := bind_eq_ok_iff.mp hbind
  obtain ⟨harity, hkind, -⟩ := enter_static he
  exact ⟨e, hl, h.ingest hl hi, harity, hkind⟩

theorem Collected.foldlM_ingest {lines : List Text} (h : Collected agg es)
    (hf : lines.foldlM Aggregate.ingest agg = .ok agg') :
    Collected agg' (es ++ Entry.ofLines agg.arity agg.kind lines) ∧
      agg'.arity = agg.arity ∧ agg'.kind = agg.kind := by
  induction lines generalizing agg es with
  | nil =>
    cases hf
    simpa [Entry.ofLines] using h
  | cons line rest ih =>
    rw [List.foldlM_cons] at hf
    obtain ⟨next, hi, hf⟩ := bind_eq_ok_iff.mp hf
    obtain ⟨e, hl, hnext, harity, hkind⟩ := h.ingest_ok hi
    obtain ⟨hrest, harity', hkind'⟩ := ih hnext hf
    rw [harity, hkind, List.append_assoc, List.singleton_append, ← Entry.ofLines_cons hl] at hrest
    exact ⟨hrest, harity'.trans harity, hkind'.trans hkind⟩

/-- **Lines.**  By induction on the lines: each has to be a record, and the
totals are looked at after each of them. -/
theorem Collected.exists_foldlM_ingest_iff {lines : List Text} (h : Collected agg es) :
    (∃ agg', lines.foldlM Aggregate.ingest agg = .ok agg') ↔
      (∀ line ∈ lines, ∃ e, Entry.ofLine agg.arity agg.kind line = .ok e) ∧
      ∀ k, Entry.TotalsFit agg.arity agg.kind
        (es ++ (Entry.ofLines agg.arity agg.kind lines).take k) := by
  induction lines generalizing agg es with
  | nil => simpa [Entry.ofLines, pure, Except.pure] using h.totalsFit
  | cons line rest ih =>
    simp only [List.foldlM_cons, bind_eq_ok_iff]
    constructor
    · rintro ⟨agg', next, hi, hrest⟩
      obtain ⟨e, hl, hnext, harity, hkind⟩ := h.ingest_ok hi
      obtain ⟨hlines, htotals⟩ := (ih hnext).mp ⟨agg', hrest⟩
      rw [harity, hkind] at hlines htotals
      refine ⟨List.forall_mem_cons.mpr ⟨⟨e, hl⟩, hlines⟩, ?_⟩
      intro k
      rw [Entry.ofLines_cons hl]
      cases k with
      | zero => simpa using h.totalsFit
      | succ k => simpa using htotals k
    · rintro ⟨hlines, htotals⟩
      obtain ⟨⟨e, hl⟩, hlines⟩ := List.forall_mem_cons.mp hlines
      rw [Entry.ofLines_cons hl] at htotals
      have hone : Entry.TotalsFit agg.arity agg.kind (es ++ [e]) := by simpa using htotals 1
      obtain ⟨next, henter⟩ := (h.exists_enter_iff (Entry.fits_ofLine hl)).mpr hone
      have hi : agg.ingest line = .ok next := by
        rw [ingest_eq_enter, hl]
        exact henter
      obtain ⟨harity, hkind, -⟩ := enter_static henter
      obtain ⟨agg', hrest⟩ : ∃ agg', rest.foldlM Aggregate.ingest next = .ok agg' := by
        rw [ih (h.ingest hl hi), harity, hkind]
        exact ⟨hlines, fun k => by simpa using htotals (k + 1)⟩
      exact ⟨agg', next, hi, hrest⟩

/-! ## Another aggregate -/

theorem Collected.merge_one (h : Collected agg es) (h' : Collected part es')
    (hm : agg.merge [.other part] = .ok agg') : Collected agg' (es ++ es') := by
  have hothers : ∀ o ∈ [(part, es')], Collected o.1 o.2 := by simpa using h'
  simpa using h.merge hothers hm

theorem Collected.exists_merge_iff (h : Collected agg es) (h' : Collected part es')
    (hc : agg.Compatible part) : (∃ agg', agg.merge [.other part] = .ok agg') ↔
      Entry.TotalsFit agg.arity agg.kind (es ++ es') := by
  by_cases hk : agg.kind = .integer
  · have ht : ∀ o ∈ [(part, es'.map Entry.wholes)], Tallied o.1 o.2 := by
      simpa using h'.tallied (hc.2.trans hk)
    have harity : ∀ o ∈ [(part, es'.map Entry.wholes)], o.1.arity = agg.arity := by
      simpa using hc.1
    have herror : (∃ x, agg.merge [.other part] = .error x) ↔
        ∃ i < agg.arity, ¬ InRange (columnTotal ((es ++ es').map Entry.wholes) i) := by
      refine ((h.tallied hk).merge_error_iff ht harity).trans ⟨?_, ?_⟩
      · rintro ⟨k, hle, i, hi, hout⟩
        obtain rfl | rfl : k = 0 ∨ k = 1 := by simpa [Nat.le_one_iff_eq_zero_or_eq_one] using hle
        · exact absurd (h.totalsFit hk i hi) (by simpa using hout)
        · exact ⟨i, hi, by simpa using hout⟩
      · rintro ⟨i, hi, hout⟩
        exact ⟨1, by simp, i, hi, by simpa using hout⟩
    rw [exists_ok_iff, herror, Entry.TotalsFit]
    simp [hk]
  · refine iff_of_true ?_ fun hk' => absurd hk' hk
    have hsums : agg.mergedSums [part] = .ok agg.exact := by rw [mergedSums, if_neg hk]
    exact ⟨_, (merge_eq_ok_iff agg _ _).mpr ⟨by simpa [Operand.resolve] using hc, _, hsums, rfl⟩⟩

end Aggregate

end PerfReport
