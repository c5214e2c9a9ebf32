import PerfReport.Proofs.Aggregate.Update

/-!
# The shape of an aggregate

As many columns and moments as the arity says, and as many exact sums for
whole numbers, none otherwise. A fresh aggregate has this shape and every
operation keeps it, so that no list of an aggregate is ever shorter than its
arity.
-/

namespace PerfReport.Aggregate

/-- How many exact sums there are. -/
def exactArity {α : Type} (agg : Aggregate α) : Nat :=
  if agg.kind = .integer then agg.arity else 0

/-- Every list of the aggregate is as long as it has to be. -/
structure Shaped {α : Type} (agg : Aggregate α) : Prop where
  columns : agg.columns.length = agg.arity
  moments : agg.moments.length = agg.arity
  exact : agg.exact.length = agg.exactArity

variable {α : Type}

theorem Shaped.exact_integer {agg : Aggregate α} (h : agg.Shaped) (hk : agg.kind = .integer) :
    agg.exact.length = agg.arity := by
  rw [h.exact, exactArity, if_pos hk]

theorem Shaped.exact_nil {agg : Aggregate α} (h : agg.Shaped) (hk : agg.kind ≠ .integer) :
    agg.exact = [] := by
  rw [← List.length_eq_zero_iff, h.exact, exactArity, if_neg hk]

theorem Shaped.setFloor {agg : Aggregate α} (h : agg.Shaped) (floor : Bool) :
    (agg.setFloor floor).Shaped :=
  ⟨h.columns, h.moments, h.exact⟩

theorem length_addSums {i : Nat} {done sums values r : List Int64}
    (h : addSums i done sums values = .ok r) : r.length = done.length + sums.length := by
  fun_induction addSums i done sums values with
  | case1 i done s sums v values t ht ih =>
    have := ih h
    simp only [List.length_cons] at this ⊢
    omega
  | case2 i done s sums v values ht => cases h
  | case3 i done sums values hne =>
    cases h
    simp

theorem length_stageSums {sums r : List Int64} {others : List (Aggregate α)}
    (h : stageSums sums others = .ok r) : r.length = sums.length := by
  induction others generalizing sums with
  | nil =>
    cases h
    rfl
  | cons o os ih =>
    obtain ⟨sums', hs, hr⟩ := bind_eq_ok_iff.mp h
    rw [ih hr, length_addSums hs]
    simp

theorem length_mergedSums {agg : Aggregate α} {others : List (Aggregate α)} {r : List Int64}
    (h : agg.mergedSums others = .ok r) : r.length = agg.exact.length := by
  unfold mergedSums at h
  split at h
  · exact length_stageSums h
  · cases h
    rfl

variable [Arith α]

theorem shaped_fresh (arity : Nat) (kind : NumericKind) :
    (fresh arity kind : Aggregate α).Shaped := by
  refine ⟨by simp [fresh], by simp [fresh], ?_⟩
  by_cases hk : kind = .integer <;> simp [fresh, exactArity, hk]

theorem Shaped.apply {agg : Aggregate α} (h : agg.Shaped) {record : List α}
    (hr : record.length = agg.arity) : (agg.apply record).Shaped := by
  refine ⟨?_, ?_, h.exact⟩
  · simp [Aggregate.apply, h.columns, hr]
  · simp [Aggregate.apply, h.moments, hr]

theorem Shaped.addIntegers {agg agg' : Aggregate α} (h : agg.Shaped) {values : List Int64}
    (hv : values.length = agg.arity) (ha : agg.addIntegers values = .ok agg') : agg'.Shaped := by
  obtain ⟨sums, hs, rfl⟩ := (addIntegers_eq_ok_iff agg agg' values).mp ha
  have hlen : (values.map (Arith.ofWhole : Int64 → α)).length = agg.arity := by simpa using hv
  have happ := h.apply hlen
  refine ⟨happ.columns, happ.moments, ?_⟩
  rw [length_addSums hs, List.length_nil, Nat.zero_add]
  exact h.exact

theorem Shaped.add {agg agg' : Aggregate α} (h : agg.Shaped) {record : List α}
    (ha : agg.add record = .ok agg') : agg'.Shaped := by
  obtain ⟨hn, ⟨-, values, hv, ha'⟩ | ⟨-, rfl⟩⟩ := (add_eq_ok_iff agg agg' record).mp ha
  · have hlen : record.length = values.length := by simpa using congrArg List.length hv
    exact h.addIntegers (hlen.symm.trans hn) ha'
  · exact h.apply hn

theorem Shaped.ingest {agg agg' : Aggregate Float} (h : agg.Shaped) {line : Text}
    (ha : agg.ingest line = .ok agg') : agg'.Shaped := by
  obtain ⟨-, values, hv, ha'⟩ | ⟨-, record, hr, rfl⟩ := (ingest_eq_ok_iff agg agg' line).mp ha
  · exact h.addIntegers (length_parseIntegers hv) ha'
  · exact h.apply (length_parseRecord hr)

theorem Shaped.readFrom {agg : Aggregate Float} (h : agg.Shaped) (text : Text) (limit : Int) :
    (agg.readFrom text limit).aggregate.Shaped :=
  readFrom_invariant (fun _ _ _ h hi => h.ingest hi) agg h text limit

/-- One operand more: the lists stay as long as the receiver's. -/
theorem Shaped.absorb {agg : Aggregate α} (h : agg.Shaped) {o : Operand α}
    (hc : agg.Compatible (o.resolve agg)) (ho : (o.resolve agg).Shaped) :
    (agg.absorb o).Shaped := by
  refine ⟨?_, ?_, h.exact⟩
  · simp [Aggregate.absorb, h.columns, ho.columns, hc.1]
  · simp [Aggregate.absorb, h.moments, ho.moments, hc.1]

/-- The induction is on the operands still to be absorbed. The receiver
stands for what it has become by then, so its own shape is what it brings. -/
theorem Shaped.foldl_absorb {others : List (Operand α)} {agg : Aggregate α} (h : agg.Shaped)
    (hc : ∀ o, .other o ∈ others → agg.Compatible o)
    (ho : ∀ o, .other o ∈ others → o.Shaped) :
    (others.foldl Aggregate.absorb agg).Shaped ∧
      (others.foldl Aggregate.absorb agg).exactArity = agg.exactArity := by
  induction others generalizing agg with
  | nil => exact ⟨h, rfl⟩
  | cons o os ih =>
    have hstep : (agg.absorb o).Shaped := by
      cases o with
      | self => exact h.absorb ⟨rfl, rfl⟩ h
      | other o => exact h.absorb (hc o (List.mem_cons_self ..)) (ho o (List.mem_cons_self ..))
    exact ih hstep (fun p hp => hc p (List.mem_cons_of_mem _ hp))
      (fun p hp => ho p (List.mem_cons_of_mem _ hp))

theorem Shaped.merge {agg agg' : Aggregate α} (h : agg.Shaped) {others : List (Operand α)}
    (ho : ∀ o, .other o ∈ others → o.Shaped) (hm : agg.merge others = .ok agg') :
    agg'.Shaped := by
  obtain ⟨hc, sums, hs, rfl⟩ := (merge_eq_ok_iff agg agg' others).mp hm
  obtain ⟨hf, he⟩ := h.foldl_absorb (fun o hmem => hc (.other o) hmem) ho
  refine ⟨hf.columns, hf.moments, ?_⟩
  exact ((length_mergedSums hs).trans h.exact).trans he.symm

end PerfReport.Aggregate
