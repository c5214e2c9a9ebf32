import PerfReport.Proofs.Word
import PerfReport.Storage.Key

/-!
# Run keys in order

Run keys are the bytes of the ids behind one letter, so they sort as the ids
do and no two ids share one. Every key of that form is the key of a run, and
the key of the last id is not of that form.
-/

namespace PerfReport.Key

theorem bigValue_ofRun (id : UInt64) : Word.bigValue (Word.big 8 id.toNat) = id.toNat :=
  Word.bigValue_big 8 id.toNat id.toNat_lt

theorem isRun_ofRun (id : UInt64) : isRun (ofRun id) = true := by
  simp [isRun, ofRun]

theorem runId?_ofRun (id : UInt64) : runId? (ofRun id) = some id := by
  have htake : (Word.big 8 id.toNat).take 8 = Word.big 8 id.toNat :=
    List.take_of_length_le (by simp)
  have hlen : ¬ (ofRun id).length < 9 := by simp [ofRun]
  rw [runId?, if_neg hlen, ofRun, List.drop_succ_cons, List.drop_zero, htake, bigValue_ofRun,
    UInt64.ofNat_toNat]

theorem ofRun_inj {a b : UInt64} : ofRun a = ofRun b ↔ a = b := by
  constructor
  · intro h
    have := congrArg runId? h
    simpa [runId?_ofRun] using this
  · rintro rfl
    rfl

/-- Keys sort in run order. -/
theorem ofRun_lt_ofRun_iff (a b : UInt64) : ofRun a < ofRun b ↔ a < b := by
  have hbytes := Word.lt_iff_bigValue_lt (Word.big 8 a.toNat) (Word.big 8 b.toNat) (by simp)
  rw [bigValue_ofRun, bigValue_ofRun] at hbytes
  rw [ofRun, ofRun, List.cons_lt_cons_iff, hbytes, UInt64.lt_iff_toNat_lt]
  simp [UInt8.lt_irrefl]

/-- Nothing but a run has a key of that form. -/
theorem isRun_iff (key : Text) : isRun key = true ↔ ∃ id, key = ofRun id := by
  constructor
  · intro h
    simp only [isRun, Bool.and_eq_true, beq_iff_eq] at h
    cases key with
    | nil => simp at h
    | cons b t =>
      have hlen : t.length = 8 := by simpa using h.1
      have hb : b = runMark := by simpa using h.2
      have ht := Word.bigValue_lt t
      have hbig := Word.big_bigValue t
      rw [hlen] at ht hbig
      refine ⟨UInt64.ofNat (Word.bigValue t), ?_⟩
      rw [ofRun, UInt64.toNat_ofNat_of_lt' ht, hbig, hb]
  · rintro ⟨id, rfl⟩
    exact isRun_ofRun id

theorem isRun_lastId : isRun lastId = false := by decide

theorem ofRun_ne_lastId (id : UInt64) : ofRun id ≠ lastId := by
  intro h
  have := isRun_ofRun id
  rw [h, isRun_lastId] at this
  cases this

end PerfReport.Key
