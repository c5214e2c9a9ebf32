import PerfReport.Proofs.Snapshot.RoundTrip

/-!
# Reachable aggregates

The aggregates that operations can lead to, failed operations included: a
failed call leaves the aggregate as it was. An aggregate may be archived and
read back on the way. The shape of an aggregate does not depend on what its
numbers are, so this is looked at for any arithmetic first.

* `Arises.shaped`: whatever the arithmetic, all of them are in shape;
* `Reachable.arises`: the operations on doubles are such operations;
* `decode_encode_of_reachable`: so the snapshot of any of them, with sizes
  that can be written, is read back unchanged.
-/

namespace PerfReport.Aggregate

/-! ## Any arithmetic -/

section Arises

variable {α : Type} [Arith α]

/-- What successful calls can make of a fresh aggregate. A line is entered as a
record, or as whole numbers, one a column. -/
inductive Arises : Aggregate α → Prop
  | fresh (arity : Nat) (kind : NumericKind) : Arises (.fresh arity kind)
  | setFloor {agg : Aggregate α} (floor : Bool) : Arises agg → Arises (agg.setFloor floor)
  | add {agg agg' : Aggregate α} {record : List α} :
      Arises agg → agg.add record = .ok agg' → Arises agg'
  | addIntegers {agg agg' : Aggregate α} {values : List Int64} :
      Arises agg → values.length = agg.arity → agg.addIntegers values = .ok agg' → Arises agg'
  | merge {agg agg' : Aggregate α} {others : List (Operand α)} :
      Arises agg → (∀ o, .other o ∈ others → Arises o) → agg.merge others = .ok agg' →
        Arises agg'

/-- **Shape.**  By induction over the calls: every one keeps the shape. -/
theorem Arises.shaped {agg : Aggregate α} (h : agg.Arises) : agg.Shaped := by
  induction h with
  | fresh arity kind => exact shaped_fresh arity kind
  | setFloor floor _ ih => exact ih.setFloor floor
  | add _ ha ih => exact ih.add ha
  | addIntegers _ hv ha ih => exact ih.addIntegers hv ha
  | merge _ _ hm ih iho => exact ih.merge iho hm

end Arises

/-! ## Doubles -/

/-- The aggregate after a call: the result, or itself if the call failed. -/
def afterCall (agg : Aggregate Float) : Except FormatError (Aggregate Float) → Aggregate Float
  | .ok agg' => agg'
  | .error _ => agg

/-- What any sequence of calls can make of a fresh aggregate. The operands of
a merge are reachable themselves, may repeat and may be the receiver. -/
inductive Reachable : Aggregate Float → Prop
  | fresh (arity : Nat) (kind : NumericKind) : Reachable (.fresh arity kind)
  | setFloor {agg : Aggregate Float} (floor : Bool) :
      Reachable agg → Reachable (agg.setFloor floor)
  | ingest {agg : Aggregate Float} (line : Text) :
      Reachable agg → Reachable (agg.afterCall (agg.ingest line))
  | add {agg : Aggregate Float} (record : Record) :
      Reachable agg → Reachable (agg.afterCall (agg.add record))
  | readFrom {agg : Aggregate Float} (text : Text) (limit : Int) :
      Reachable agg → Reachable (agg.readFrom text limit).aggregate
  | merge {agg : Aggregate Float} (others : List (Operand Float)) :
      Reachable agg → (∀ o, .other o ∈ others → Reachable o) →
        Reachable (agg.afterCall (agg.merge others))
  | reload {s s' : Snapshot} :
      Reachable s.aggregate → s.Encodable → Snapshot.decode s.encode = .ok s' →
        Reachable s'.aggregate

/-- What every successful call gives holds after every call. -/
theorem afterCall_of_ok {P : Aggregate Float → Prop} {agg : Aggregate Float}
    {r : Except FormatError (Aggregate Float)} (h : P agg) (hr : ∀ agg', r = .ok agg' → P agg') :
    P (agg.afterCall r) := by
  cases r with
  | error e => exact h
  | ok agg' => exact hr agg' rfl

theorem Arises.ingest {agg agg' : Aggregate Float} {line : Text} (h : agg.Arises)
    (hi : agg.ingest line = .ok agg') : agg'.Arises := by
  obtain ⟨-, values, hv, ha⟩ | ⟨hk, record, hr, rfl⟩ := (ingest_eq_ok_iff agg agg' line).mp hi
  · exact h.addIntegers (length_parseIntegers hv) ha
  · exact h.add ((add_eq_ok_iff agg _ record).mpr ⟨length_parseRecord hr, .inr ⟨hk, rfl⟩⟩)

theorem Reachable.arises {agg : Aggregate Float} (h : agg.Reachable) : agg.Arises := by
  induction h with
  | fresh arity kind => exact .fresh arity kind
  | setFloor floor _ ih => exact ih.setFloor floor
  | ingest line _ ih => exact afterCall_of_ok ih fun _ hi => ih.ingest hi
  | add record _ ih => exact afterCall_of_ok ih fun _ ha => ih.add ha
  | readFrom text limit _ ih =>
    exact readFrom_invariant (fun _ _ _ h hi => h.ingest hi) _ ih text limit
  | merge others _ _ ih iho => exact afterCall_of_ok ih fun _ hm => ih.merge iho hm
  | reload _ hs hd ih =>
    rw [Snapshot.decode_encode hs ih.shaped] at hd
    cases hd
    exact ih

theorem Reachable.shaped {agg : Aggregate Float} (h : agg.Reachable) : agg.Shaped :=
  h.arises.shaped

end PerfReport.Aggregate

namespace PerfReport.Snapshot

/-- The snapshot is read back from its bytes, every field of it, with an exact
sum for every column of whole numbers and without any for all other kinds. -/
structure ComesBack {α : Type} [Carrier α] (s : Snapshot α) : Prop where
  same : decode s.encode = .ok s
  wholes : s.aggregate.kind = .integer → s.aggregate.exact.length = s.aggregate.arity
  others : s.aggregate.kind ≠ .integer → s.aggregate.exact = []

theorem comesBack_of_shaped {α : Type} [Carrier α] [LawfulCarrier α] {s : Snapshot α}
    (hs : s.Encodable) (h : s.aggregate.Shaped) : s.ComesBack :=
  ⟨decode_encode hs h, h.exact_integer, h.exact_nil⟩

/-- **Archived runs come back unchanged.**  A snapshot whose lengths fit four
bytes and whose kind fits one comes back from its bytes as it was, whatever
holds its 64-bit numbers without loss: the bare patterns do, with every pattern
of the indefinite value. Its aggregate has to be in shape. That is the case if
calls have led to it in any arithmetic on such numbers, and so for doubles
whatever was set, ingested, added, read, merged and reloaded. -/
theorem decode_encode_of_reachable :
    (∀ (α : Type) [Carrier α] [LawfulCarrier α] (s : Snapshot α),
      s.Encodable → s.aggregate.Shaped → s.ComesBack) ∧
    (∀ (α : Type) [Arith α] [Carrier α] [LawfulCarrier α] (s : Snapshot α),
      s.Encodable → s.aggregate.Arises → s.ComesBack) ∧
    ∀ s : Snapshot, s.Encodable → s.aggregate.Reachable → s.ComesBack :=
  ⟨fun _ _ _ _ hs h => comesBack_of_shaped hs h,
    fun _ _ _ _ _ hs h => comesBack_of_shaped hs h.shaped,
    fun _ hs h => comesBack_of_shaped hs h.shaped⟩

/-- Two columns of whole numbers, means rounded down, one record. -/
def sample : Snapshot where
  id := 7
  created := -1
  layout := [97, 98]
  title := []
  sources := [[120, 0], [255]]
  aggregate := ((Aggregate.fresh 2 .integer).setFloor true).afterCall
    (((Aggregate.fresh 2 .integer).setFloor true).ingest [51, 32, 45, 52])

/-- One column with two patterns of the indefinite value, neither of them the
one that doubles compute with. -/
def payloads : Snapshot Pattern where
  id := 8
  created := 1
  layout := [97]
  title := [98]
  sources := []
  aggregate := .restore .float false 2
    [⟨⟨⟨0x7FF8000000000001⟩, ⟨0xFFF8000000000000⟩, ⟨0⟩⟩, ⟨2, ⟨0x7FF8000000000001⟩, ⟨0⟩⟩, 0⟩]

theorem decode_encode_sample :
    sample.aggregate.exact = [3, -4] ∧ decode sample.encode = .ok sample ∧
    payloads.aggregate.totals = [⟨0x7FF8000000000001⟩] ∧ decode payloads.encode = .ok payloads := by
  have hs : sample.Encodable := by
    refine ⟨by decide, by decide, by decide, by decide, ?_, ?_⟩
    · exact Nat.lt_of_le_of_lt (Nat.le_of_eq (rfl : sample.aggregate.arity = 2)) (by decide)
    · exact (rfl : sample.aggregate.kind = .integer) ▸ by decide
  have hr : sample.aggregate.Reachable :=
    .ingest [51, 32, 45, 52] (.setFloor true (.fresh 2 .integer))
  have hp : payloads.Encodable :=
    ⟨by decide, by decide, by decide, by decide, by decide, by decide⟩
  exact ⟨rfl, (decode_encode_of_reachable.2.2 sample hs hr).same, rfl,
    (decode_encode_of_reachable.1 Pattern payloads hp (Aggregate.shaped_restore ..)).same⟩

end PerfReport.Snapshot
