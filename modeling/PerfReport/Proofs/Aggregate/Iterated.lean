import PerfReport.Proofs.Aggregate.Update

/-!
# Several at once, or one after the other

Merging several aggregates at once is merging one after the other, except for
the exact sums of a receiver that comes again: figures, moments and rows are
read from what it has become by then, exact sums from what it was at first.

* `merge_cons_iff`: the first operand may be merged on its own, unless a later
  one reads sums that this changes;
* `merge_eq_ok_iff_mergeEach`: so may all of them;
* `eq_of_mergeEach`: exact sums apart, it makes no difference;
* `merge_iterated`: both, and whose sums are added.
-/

namespace PerfReport.Aggregate

section Sums

variable {α : Type} {agg : Aggregate α} {others : List (Operand α)}

def withExact (agg : Aggregate α) (sums : List Int64) : Aggregate α := { agg with exact := sums }

/-- Sums are staged from the sums after the first aggregate. -/
theorem mergedSums_cons_iff {o : Aggregate α} {os : List (Aggregate α)} {r : List Int64} :
    agg.mergedSums (o :: os) = .ok r ↔
      ∃ sums, agg.mergedSums [o] = .ok sums ∧ (agg.withExact sums).mergedSums os = .ok r := by
  unfold mergedSums withExact
  split
  · simp [stageSums, bind_eq_ok_iff]
  · simp

/-- Only the exact sums of a receiver that comes again depend on when it is
read. -/
theorem mergedSums_resolve (p q : Aggregate α) (h : agg.kind ≠ .integer ∨ .self ∉ others) :
    agg.mergedSums (others.map (Operand.resolve p)) =
      agg.mergedSums (others.map (Operand.resolve q)) := by
  rcases h with hk | hself
  · rw [mergedSums, mergedSums, if_neg hk, if_neg hk]
  · have hsame : others.map (Operand.resolve p) = others.map (Operand.resolve q) := by
      apply List.map_congr_left
      intro o ho
      cases o with
      | self => exact absurd ho hself
      | other o => rfl
    rw [hsame]

end Sums

variable {α : Type} [Arith α] {agg agg' : Aggregate α} {others : List (Operand α)}

/-! ## One operand -/

/-- Figures, moments and rows neither read nor write exact sums. -/
theorem foldl_absorb_withExact (agg : Aggregate α) (sums : List Int64)
    (others : List (Operand α)) :
    others.foldl absorb (agg.withExact sums) = (others.foldl absorb agg).withExact sums := by
  induction others generalizing agg with
  | nil => rfl
  | cons o os ih =>
    have habsorb : (agg.withExact sums).absorb o = (agg.absorb o).withExact sums := by
      cases o <;> rfl
    rw [List.foldl_cons, habsorb, ih, List.foldl_cons]

theorem merge_one_iff {o : Operand α} : agg.merge [o] = .ok agg' ↔
    agg.Compatible (o.resolve agg) ∧ ∃ sums, agg.mergedSums [o.resolve agg] = .ok sums ∧
      agg' = (agg.absorb o).withExact sums := by
  simp [merge_eq_ok_iff, withExact]

/-- The others into what the first operand has made of the receiver. -/
theorem merge_absorb_iff {o : Operand α} {sums : List Int64}
    (h : agg.kind ≠ .integer ∨ .self ∉ others) :
    ((agg.absorb o).withExact sums).merge others = .ok agg' ↔
      (∀ p ∈ others, agg.Compatible (p.resolve agg)) ∧ ∃ r,
        (agg.withExact sums).mergedSums (others.map (Operand.resolve agg)) = .ok r ∧
        agg' = ((o :: others).foldl absorb agg).withExact r := by
  have hc (p : Operand α) : ((agg.absorb o).withExact sums).Compatible
      (p.resolve ((agg.absorb o).withExact sums)) ↔ agg.Compatible (p.resolve agg) := by
    cases p with
    | self => exact iff_of_true ⟨rfl, rfl⟩ ⟨rfl, rfl⟩
    | other p => exact Iff.rfl
  have hsums : ((agg.absorb o).withExact sums).mergedSums
      (others.map (Operand.resolve ((agg.absorb o).withExact sums))) =
      (agg.withExact sums).mergedSums (others.map (Operand.resolve agg)) :=
    show (agg.withExact sums).mergedSums _ = _ from mergedSums_resolve _ _ h
  simp only [merge_eq_ok_iff, hc, hsums, foldl_absorb_withExact]
  rfl

/-- **One step.**  The first operand may be merged on its own. -/
theorem merge_cons_iff {o : Operand α} (h : agg.kind ≠ .integer ∨ .self ∉ others) :
    agg.merge (o :: others) = .ok agg' ↔
      ∃ next, agg.merge [o] = .ok next ∧ next.merge others = .ok agg' := by
  rw [merge_eq_ok_iff, List.map_cons, List.forall_mem_cons]
  constructor
  · rintro ⟨⟨ho, hothers⟩, r, hr, rfl⟩
    obtain ⟨sums, hs, hr⟩ := mergedSums_cons_iff.mp hr
    exact ⟨_, merge_one_iff.mpr ⟨ho, sums, hs, rfl⟩,
      (merge_absorb_iff h).mpr ⟨hothers, r, hr, rfl⟩⟩
  · rintro ⟨next, hfirst, hnext⟩
    obtain ⟨ho, sums, hs, rfl⟩ := merge_one_iff.mp hfirst
    obtain ⟨hothers, r, hr, rfl⟩ := (merge_absorb_iff h).mp hnext
    exact ⟨⟨ho, hothers⟩, r, mergedSums_cons_iff.mpr ⟨sums, hs, hr⟩, rfl⟩

/-! ## All operands -/

/-- One operand after the other, each in a merge of its own. -/
def mergeEach (agg : Aggregate α) (others : List (Operand α)) :
    Except FormatError (Aggregate α) :=
  others.foldlM (fun agg o => agg.merge [o]) agg

theorem mergeEach_cons_iff {o : Operand α} : mergeEach agg (o :: others) = .ok agg' ↔
    ∃ next, agg.merge [o] = .ok next ∧ mergeEach next others = .ok agg' := by
  rw [mergeEach, List.foldlM_cons, bind_eq_ok_iff]
  rfl

/-- The first operand may be the receiver: its sums have not changed by then. -/
theorem merge_eq_ok_iff_mergeEach (h : agg.kind ≠ .integer ∨ .self ∉ others.tail) :
    agg.merge others = .ok agg' ↔ mergeEach agg others = .ok agg' := by
  induction others generalizing agg with
  | nil =>
    have hnone : agg.merge [] = .ok agg :=
      (merge_eq_ok_iff agg agg []).mpr ⟨nofun, agg.exact, by simp [mergedSums, stageSums], rfl⟩
    rw [hnone]
    rfl
  | cons o os ih =>
    rw [List.tail_cons] at h
    rw [merge_cons_iff h, mergeEach_cons_iff]
    refine exists_congr fun next => and_congr_right fun hnext => ih ?_
    obtain ⟨-, sums, -, rfl⟩ := merge_one_iff.mp hnext
    exact h.imp_right fun hself hmem => hself (List.mem_of_mem_tail hmem)

theorem eq_of_mergeEach (h : mergeEach agg others = .ok agg') :
    agg' = (others.foldl absorb agg).withExact agg'.exact := by
  induction others generalizing agg with
  | nil =>
    cases h
    rfl
  | cons o os ih =>
    obtain ⟨next, hnext, hrest⟩ := mergeEach_cons_iff.mp h
    obtain ⟨-, sums, -, rfl⟩ := merge_one_iff.mp hnext
    rw [ih hrest, foldl_absorb_withExact]
    rfl

/-- Exact sums are those of copies that were made beforehand. -/
theorem exists_merge_copies (hm : agg.merge others = .ok agg') : ∃ copied,
    agg.merge (others.map fun o => .other (o.resolve agg)) = .ok copied ∧
      copied.exact = agg'.exact := by
  obtain ⟨hc, sums, hs, rfl⟩ := (merge_eq_ok_iff agg agg' others).mp hm
  refine ⟨_, (merge_eq_ok_iff agg _ _).mpr ⟨?_, sums, ?_, rfl⟩, rfl⟩
  · intro p hp
    obtain ⟨o, ho, rfl⟩ := List.mem_map.mp hp
    exact hc o ho
  · rw [List.map_map]
    exact hs

/-- **Several at once, or one after the other.**  A merge of several aggregates
that is accepted leaves what the same merges one after the other leave, each of
which reads the receiver as it is by then: unless sums are exact and the
receiver comes again behind the first place. Even then rows, figures and moments
are the same, and the exact sums are those of the merges one after the other of
copies that were made beforehand. -/
theorem merge_iterated (hm : agg.merge others = .ok agg') :
    (agg.kind ≠ .integer ∨ .self ∉ others.tail → mergeEach agg others = .ok agg') ∧
    (∀ each, mergeEach agg others = .ok each → agg' = { each with exact := agg'.exact }) ∧
    ∃ copied, mergeEach agg (others.map fun o => .other (o.resolve agg)) = .ok copied ∧
      copied.exact = agg'.exact := by
  refine ⟨fun h => (merge_eq_ok_iff_mergeEach h).mp hm, ?_, ?_⟩
  · intro each heach
    obtain ⟨-, sums, -, rfl⟩ := (merge_eq_ok_iff agg agg' others).mp hm
    rw [eq_of_mergeEach heach]
    rfl
  · obtain ⟨copied, hcopied, hexact⟩ := exists_merge_copies hm
    have hself : .self ∉ (others.map fun o => Operand.other (o.resolve agg)).tail := by
      intro hmem
      simpa using List.mem_of_mem_tail hmem
    exact ⟨copied, (merge_eq_ok_iff_mergeEach (.inr hself)).mp hcopied, hexact⟩

/-- One column of whole numbers with a one in it. -/
def single : Aggregate Float :=
  { (Aggregate.fresh 1 .integer).apply [Arith.ofWhole 1] with exact := [1] }

theorem merge_iterated_single : ∃ merged, single.merge [.self, .other single] = .ok merged ∧
    mergeEach single [.self, .other single] = .ok merged ∧ merged.exact = [3] := by
  have hm : single.merge [.self, .other single] = .ok _ := rfl
  exact ⟨_, hm, (merge_iterated hm).1 (.inr (by simp)), rfl⟩

/-- The receiver twice more: four rows that add up to four either way, but to
three in the exact sum if both come at once. -/
theorem single_twice_more : (Aggregate.fresh 1 .integer).ingest "1" = .ok single ∧
    ∃ merged each, single.merge [.self, .self] = .ok merged ∧
      mergeEach single [.self, .self] = .ok each ∧ merged ≠ each ∧
      merged.rows = 4 ∧ each.rows = 4 ∧ merged.totals = [4.0] ∧ each.totals = [4.0] ∧
      merged.exact = [3] ∧ each.exact = [4] := by
  refine ⟨rfl, _, _, rfl, rfl, ?_, rfl, rfl, rfl, rfl, rfl, rfl⟩
  intro h
  cases congrArg Aggregate.exact h

end PerfReport.Aggregate
