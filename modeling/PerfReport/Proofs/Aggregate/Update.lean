import PerfReport.Aggregate.Merge
import PerfReport.Reading

/-!
# What an update does

One lemma for each operation on aggregates says when it succeeds and what the
aggregate then is, so that no later proof opens the operation again:

* `addIntegers_eq_ok_iff`, `add_eq_ok_iff`, `ingest_eq_ok_iff` for records,
* `merge_eq_ok_iff` for other aggregates,
* `readFrom_invariant` for a whole log, line by line.
-/

namespace PerfReport

section Except

variable {ε α β : Type} {e : Except ε α} {f : α → Except ε β}

theorem bind_eq_ok_iff {b : β} : (e >>= f) = .ok b ↔ ∃ a, e = .ok a ∧ f a = .ok b := by
  cases e <;> simp [bind, Except.bind]

theorem bind_eq_error_iff {x : ε} :
    (e >>= f) = .error x ↔ e = .error x ∨ ∃ a, e = .ok a ∧ f a = .error x := by
  cases e <;> simp [bind, Except.bind]

theorem exists_ok_iff : (∃ a, e = .ok a) ↔ ¬ ∃ x, e = .error x := by
  cases e <;> simp

theorem map_eq_ok_iff {g : α → β} {b : β} : g <$> e = .ok b ↔ ∃ a, e = .ok a ∧ g a = b := by
  cases e <;> simp [Functor.map, Except.map]

theorem mapError_eq_ok_iff {ε' : Type} {g : ε → ε'} {a : α} :
    e.mapError g = .ok a ↔ e = .ok a := by
  cases e with
  | error x => exact ⟨nofun, nofun⟩
  | ok a' => exact ⟨fun h => by cases h; rfl, fun h => by cases h; rfl⟩

/-- A check that was passed. -/
theorem guard_eq_ok_iff {c : Prop} [Decidable c] {x : ε} {k : PUnit → Except ε β} {b : β} :
    (if c then throw x >>= k else k ⟨⟩) = .ok b ↔ ¬ c ∧ k ⟨⟩ = .ok b := by
  by_cases hc : c <;> simp [hc, throw, throwThe, MonadExceptOf.throw, bind, Except.bind]

end Except

/-! ## Reading records -/

/-- One item more that `f` has an answer for. -/
theorem exists_map_some_cons {α β : Type} {f : α → Option β} {x : α} {xs : List α}
    {P : List β → Prop} : (∃ ys, (x :: xs).map f = ys.map some ∧ P ys) ↔
      ∃ y, f x = some y ∧ ∃ ys, xs.map f = ys.map some ∧ P (y :: ys) := by
  constructor
  · rintro ⟨ys, h, hP⟩
    cases ys with
    | nil => simp at h
    | cons y ys =>
      simp only [List.map_cons, List.cons.injEq] at h
      exact ⟨y, h.1, ys, h.2, hP⟩
  · rintro ⟨y, hy, ys, hys, hP⟩
    exact ⟨y :: ys, by simp [hy, hys], hP⟩

/-- The tokens of an accepted line are all numbers. -/
theorem readTokens_eq_ok_iff {α : Type} (read? : Text → Option α) (kind : NumericKind) (i : Nat)
    (done : List α) (tokens : List Text) (values : List α) :
    readTokens read? kind i done tokens = .ok values ↔
      ∃ xs, tokens.map read? = xs.map some ∧ values = done.reverse ++ xs := by
  induction tokens generalizing i done with
  | nil => simp [readTokens, eq_comm (a := values)]
  | cons t ts ih =>
    rw [readTokens, exists_map_some_cons]
    cases hr : read? t <;> simp [ih]

theorem length_readTokens {α : Type} {read? : Text → Option α} {kind : NumericKind}
    {tokens : List Text} {values : List α} (h : readTokens read? kind 0 [] tokens = .ok values) :
    values.length = tokens.length := by
  obtain ⟨xs, hxs, rfl⟩ := (readTokens_eq_ok_iff read? kind 0 [] tokens values).mp h
  simpa using (congrArg List.length hxs).symm

theorem length_splitRecord {line : Text} {arity : Nat} {tokens : List Text}
    (h : splitRecord line arity = .ok tokens) : tokens.length = arity := by
  unfold splitRecord at h
  simp only at h
  split at h
  · next hn =>
    cases h
    exact_mod_cast hn
  · cases h

theorem length_parseIntegers {line : Text} {arity : Nat} {values : List Int64}
    (h : parseIntegers line arity = .ok values) : values.length = arity := by
  obtain ⟨tokens, ht, hv⟩ := bind_eq_ok_iff.mp h
  rw [length_readTokens hv, length_splitRecord ht]

theorem length_parseRecord {line : Text} {arity : Nat} {kind : NumericKind} {record : Record}
    (h : parseRecord line arity kind = .ok record) : record.length = arity := by
  obtain ⟨tokens, ht, hr⟩ := bind_eq_ok_iff.mp h
  rw [length_readTokens hr, length_splitRecord ht]

namespace Aggregate

variable {α : Type}

theorem checkCompatible_eq_ok_iff (agg : Aggregate α) (others : List (Aggregate α)) :
    agg.checkCompatible others = .ok () ↔ ∀ o ∈ others, agg.Compatible o := by
  induction others with
  | nil => simp [checkCompatible]
  | cons o os ih =>
    rw [checkCompatible]
    by_cases ho : agg.Compatible o <;> simp [ho, ih]

variable [Arith α]

/-! ## Adding records -/

theorem wholes_eq_ok_iff (i : Nat) (done : List Int64) (record : List α) (values : List Int64) :
    wholes i done record = .ok values ↔
      ∃ ns, record.map Arith.toWhole? = ns.map some ∧ values = done.reverse ++ ns := by
  induction record generalizing i done with
  | nil => simp [wholes, eq_comm (a := values)]
  | cons x xs ih =>
    rw [wholes, exists_map_some_cons]
    cases hw : Arith.toWhole? x <;> simp [ih]

theorem addIntegers_eq_ok_iff (agg agg' : Aggregate α) (values : List Int64) :
    agg.addIntegers values = .ok agg' ↔ ∃ sums, addSums 0 [] agg.exact values = .ok sums ∧
      agg' = { agg.apply (values.map Arith.ofWhole) with exact := sums } := by
  rw [addIntegers, bind_eq_ok_iff]
  simp [pure, Except.pure, eq_comm]

theorem addIntegers_eq_error_iff (agg : Aggregate α) (values : List Int64) (e : FormatError) :
    agg.addIntegers values = .error e ↔ addSums 0 [] agg.exact values = .error e := by
  rw [addIntegers, bind_eq_error_iff]
  simp [pure, Except.pure]

/-- A record of the wrong length is refused; one of whole numbers is added
exactly, any other as it is. -/
theorem add_eq_ok_iff (agg agg' : Aggregate α) (record : List α) :
    agg.add record = .ok agg' ↔ record.length = agg.arity ∧
      ((agg.kind = .integer ∧ ∃ values, record.map Arith.toWhole? = values.map some ∧
          agg.addIntegers values = .ok agg') ∨
        (agg.kind ≠ .integer ∧ agg' = agg.apply record)) := by
  unfold add
  by_cases hn : record.length = agg.arity
  · by_cases hk : agg.kind = .integer
    · simp only [hn, ne_eq, not_true_eq_false, ↓reduceIte, hk, bind_eq_ok_iff, wholes_eq_ok_iff]
      simp
    · simp [hn, hk, eq_comm]
  · simp [hn]

theorem ingest_eq_ok_iff (agg agg' : Aggregate Float) (line : Text) :
    agg.ingest line = .ok agg' ↔
      (agg.kind = .integer ∧ ∃ values, parseIntegers line agg.arity = .ok values ∧
          agg.addIntegers values = .ok agg') ∨
        (agg.kind ≠ .integer ∧ ∃ record, parseRecord line agg.arity agg.kind = .ok record ∧
          agg' = agg.apply record) := by
  unfold ingest
  by_cases hk : agg.kind = .integer
  · simp [hk, bind_eq_ok_iff]
  · simp only [hk, ↓reduceIte, bind_eq_ok_iff, add_eq_ok_iff, false_and, false_or, ne_eq,
      not_false_eq_true, true_and]
    constructor
    · rintro ⟨record, hr, -, rfl⟩
      exact ⟨record, hr, rfl⟩
    · rintro ⟨record, hr, rfl⟩
      exact ⟨record, hr, length_parseRecord hr, rfl⟩

/-! ## Merging -/

theorem merge_eq_ok_iff (agg agg' : Aggregate α) (others : List (Operand α)) :
    agg.merge others = .ok agg' ↔
      (∀ o ∈ others, agg.Compatible (o.resolve agg)) ∧
        ∃ sums, agg.mergedSums (others.map (Operand.resolve agg)) = .ok sums ∧
          agg' = { others.foldl absorb agg with exact := sums } := by
  have hcheck (u : Unit) : agg.checkCompatible (others.map (Operand.resolve agg)) = .ok u ↔
      ∀ o ∈ others, agg.Compatible (o.resolve agg) := by
    simpa using checkCompatible_eq_ok_iff agg (others.map (Operand.resolve agg))
  simp only [merge, bind_eq_ok_iff, hcheck]
  simp [pure, Except.pure, eq_comm (a := agg')]

/-! ## Reading a log -/

/-- **Logs.**  What ingesting a line keeps, reading a log keeps, wherever the
reading ends. -/
theorem readFrom_invariant {P : Aggregate Float → Prop}
    (hstep : ∀ agg agg' line, P agg → agg.ingest line = .ok agg' → P agg')
    (agg : Aggregate Float) (h : P agg) (text : Text) (limit : Int) :
    P (agg.readFrom text limit).aggregate := by
  have hlines (overlong : Bool) (lines : List Text) (agg : Aggregate Float) (read added : Nat)
      (h : P agg) : P (readLines limit overlong agg read added lines).aggregate := by
    induction lines generalizing agg read added with
    | nil => exact h
    | cons line rest ih =>
      rw [readLines]
      split
      · exact ih agg _ _ h
      · cases hi : agg.ingest line with
        | error e => exact h
        | ok agg' =>
          have h' := hstep agg agg' line h hi
          simp only
          split
          · exact h'
          · exact ih agg' _ _ h'
  exact hlines _ _ agg 0 0 h

end Aggregate

end PerfReport
