import Mathlib.Logic.Relation
import PerfReport.Proofs.Aggregate.Atomic
import PerfReport.Proofs.Aggregate.Positions
import PerfReport.Proofs.Report.Validated

/-!
# Rows and moments in balance

The rows of an aggregate are counted once, and the values of a column once more
by the moments of that column. An aggregate is balanced if it is in shape and
all of these counts agree, as numbers of 64 bits. A fresh one is, and every
operation advances all counts alike: a record by one, an operand by its rows,
through whichever branch its moments are joined.

* `Balanced.absorb`: one operand, the receiver itself included;
* `Reachable.balanced`: whatever calls have led to;
* `Step`, `Operation`: what can be done with an aggregate, to change it or to
  ask it;
* `steps_keep_balance`: from a fresh aggregate of any size and kind, through any
  steps.
-/

namespace PerfReport

namespace Aggregate

/-- In shape, and every column has as many values as there are rows. -/
structure Balanced {α : Type} (agg : Aggregate α) : Prop where
  shaped : agg.Shaped
  counts : ∀ m ∈ agg.moments, m.count = agg.rows

/-! ## What an operation keeps -/

section Operations

variable {α : Type} {agg agg' : Aggregate α}

theorem Balanced.setFloor (h : agg.Balanced) (floor : Bool) : (agg.setFloor floor).Balanced :=
  ⟨h.shaped.setFloor floor, h.counts⟩

variable [Arith α]

theorem balanced_fresh (arity : Nat) (kind : NumericKind) :
    (fresh arity kind : Aggregate α).Balanced := by
  refine ⟨shaped_fresh arity kind, ?_⟩
  intro m hm
  rw [List.eq_of_mem_replicate hm]
  rfl

theorem Balanced.apply (h : agg.Balanced) {record : List α} (hr : record.length = agg.arity) :
    (agg.apply record).Balanced := by
  refine ⟨h.shaped.apply hr, ?_⟩
  intro m hm
  obtain ⟨i, hi⟩ := List.mem_iff_getElem?.mp hm
  obtain ⟨w, x, hw, -, rfl⟩ := List.getElem?_zipWith_eq_some.mp hi
  show w.count + 1 = agg.rows + 1
  rw [h.counts w (List.mem_of_getElem? hw)]

theorem Balanced.addIntegers (h : agg.Balanced) {values : List Int64}
    (hv : values.length = agg.arity) (ha : agg.addIntegers values = .ok agg') :
    agg'.Balanced := by
  have hshaped := h.shaped.addIntegers hv ha
  obtain ⟨sums, -, rfl⟩ := (addIntegers_eq_ok_iff agg agg' values).mp ha
  have hlen : (values.map (Arith.ofWhole : Int64 → α)).length = agg.arity := by simpa using hv
  exact ⟨hshaped, (h.apply hlen).counts⟩

theorem Balanced.add (h : agg.Balanced) {record : List α} (ha : agg.add record = .ok agg') :
    agg'.Balanced := by
  obtain ⟨hn, ⟨-, values, hv, ha'⟩ | ⟨-, rfl⟩⟩ := (add_eq_ok_iff agg agg' record).mp ha
  · have hlen : record.length = values.length := by simpa using congrArg List.length hv
    exact h.addIntegers (hlen.symm.trans hn) ha'
  · exact h.apply hn

/-- One operand more. Joined moments have counted the values of both parts, also
where one part has none by its count and the other is kept as it is. -/
theorem Balanced.absorb (h : agg.Balanced) {o : Operand α} (hc : agg.Compatible (o.resolve agg))
    (ho : (o.resolve agg).Balanced) : (agg.absorb o).Balanced := by
  refine ⟨h.shaped.absorb hc ho.shaped, ?_⟩
  intro m hm
  obtain ⟨i, hi⟩ := List.mem_iff_getElem?.mp hm
  obtain ⟨w, w', hw, hw', rfl⟩ := List.getElem?_zipWith_eq_some.mp hi
  show (w.merge w').count = agg.rows + (o.resolve agg).rows
  rw [Moments.count_merge, h.counts w (List.mem_of_getElem? hw),
    ho.counts w' (List.mem_of_getElem? hw')]

/-- The induction is on the operands still to be absorbed. The receiver brings
the counts that it has by then. -/
theorem Balanced.foldl_absorb {others : List (Operand α)} (h : agg.Balanced)
    (hc : ∀ o, .other o ∈ others → agg.Compatible o)
    (ho : ∀ o, .other o ∈ others → o.Balanced) :
    (others.foldl Aggregate.absorb agg).Balanced := by
  induction others generalizing agg with
  | nil => exact h
  | cons o os ih =>
    have hstep : (agg.absorb o).Balanced := by
      cases o with
      | self => exact h.absorb ⟨rfl, rfl⟩ h
      | other o => exact h.absorb (hc o (List.mem_cons_self ..)) (ho o (List.mem_cons_self ..))
    exact ih hstep (fun p hp => hc p (List.mem_cons_of_mem _ hp))
      (fun p hp => ho p (List.mem_cons_of_mem _ hp))

theorem Balanced.merge (h : agg.Balanced) {others : List (Operand α)}
    (ho : ∀ o, .other o ∈ others → o.Balanced) (hm : agg.merge others = .ok agg') :
    agg'.Balanced := by
  have hshaped := h.shaped.merge (fun o hmem => (ho o hmem).shaped) hm
  obtain ⟨hc, sums, -, rfl⟩ := (merge_eq_ok_iff agg agg' others).mp hm
  exact ⟨hshaped, (h.foldl_absorb (fun o hmem => hc (.other o) hmem) ho).counts⟩

end Operations

section Runs

variable {agg agg' : Aggregate Float}

theorem Balanced.ingest (h : agg.Balanced) {line : Text} (hi : agg.ingest line = .ok agg') :
    agg'.Balanced := by
  obtain ⟨-, values, hv, ha⟩ | ⟨-, record, hr, rfl⟩ := (ingest_eq_ok_iff agg agg' line).mp hi
  · exact h.addIntegers (length_parseIntegers hv) ha
  · exact h.apply (length_parseRecord hr)

theorem Balanced.readFrom (h : agg.Balanced) (text : Text) (limit : Int) :
    (agg.readFrom text limit).aggregate.Balanced :=
  readFrom_invariant (fun _ _ _ hb hi => hb.ingest hi) agg h text limit

/-- **Balance.**  By induction over the calls: every one keeps it. -/
theorem Reachable.balanced (h : agg.Reachable) : agg.Balanced := by
  induction h with
  | fresh arity kind => exact balanced_fresh arity kind
  | setFloor floor _ ih => exact ih.setFloor floor
  | ingest line _ ih => exact afterCall_of_ok ih fun _ ha => ih.ingest ha
  | add record _ ih => exact afterCall_of_ok ih fun _ ha => ih.add ha
  | readFrom text limit _ ih => exact ih.readFrom text limit
  | merge others _ _ ih iho => exact afterCall_of_ok ih fun _ hm => ih.merge iho hm
  | reload _ hs hd ih =>
    rw [Snapshot.decode_encode hs ih.shaped] at hd
    cases hd
    exact ih

/-! ## Steps of one aggregate -/

/-- What can become of an aggregate by one operation. A call that fails leaves
it as it was; the operands of a merge may have come about in any way. -/
inductive Step : Aggregate Float → Aggregate Float → Prop
  | setFloor {agg : Aggregate Float} (floor : Bool) : Step agg (agg.setFloor floor)
  | call {agg : Aggregate Float} (call : Call) :
      (∀ o, .other o ∈ call.operands → o.Reachable) →
        Step agg (agg.afterCall (call.onValue agg))
  | readFrom {agg : Aggregate Float} (text : Text) (limit : Int) :
      Step agg (agg.readFrom text limit).aggregate
  | reload {s s' : Snapshot} : s.Encodable → Snapshot.decode s.encode = .ok s' →
      Step s.aggregate s'.aggregate

theorem Reachable.step (h : agg.Reachable) (hs : Step agg agg') : agg'.Reachable := by
  cases hs with
  | setFloor floor => exact .setFloor floor h
  | call call ho =>
    cases call with
    | ingest line => exact .ingest line h
    | add record => exact .add record h
    | merge others => exact .merge others h ho
  | readFrom text limit => exact .readFrom text limit h
  | reload hs hd => exact .reload h hs hd

/-- No step changes how many columns there are or what they hold. -/
theorem Step.static (h : agg.Reachable) (hs : Step agg agg') :
    agg'.arity = agg.arity ∧ agg'.kind = agg.kind := by
  cases hs with
  | setFloor floor => exact ⟨rfl, rfl⟩
  | call call ho =>
    refine afterCall_of_ok (P := fun a => a.arity = agg.arity ∧ a.kind = agg.kind) ⟨rfl, rfl⟩ ?_
    intro after hcall
    cases call with
    | ingest line => exact ingest_static hcall
    | add record =>
      obtain ⟨harity, hkind, -⟩ := add_static hcall
      exact ⟨harity, hkind⟩
    | merge others =>
      obtain ⟨harity, hkind, -⟩ := merge_static hcall
      exact ⟨harity, hkind⟩
  | readFrom text limit => exact readFrom_static agg text limit
  | reload hs hd =>
    rw [Snapshot.decode_encode hs h.shaped] at hd
    cases hd
    exact ⟨rfl, rfl⟩

/-- A run of any length, step by step. -/
theorem reachable_of_steps {arity : Nat} {kind : NumericKind}
    (h : Relation.ReflTransGen Step (fresh arity kind) agg) :
    agg.Reachable ∧ agg.arity = arity ∧ agg.kind = kind := by
  induction h with
  | refl => exact ⟨.fresh arity kind, rfl, rfl⟩
  | tail _ hs ih =>
    obtain ⟨hr, harity, hkind⟩ := ih
    obtain ⟨harity', hkind'⟩ := hs.static hr
    exact ⟨hr.step hs, harity'.trans harity, hkind'.trans hkind⟩

end Runs

end Aggregate

/-! ## Operations in place -/

/-- What can be done with an aggregate, to change it or to ask it. -/
inductive Operation
  | setFloor (floor : Bool)
  | call (call : Call)
  | readFrom (text : Text) (limit : Int)
  | totals
  | mean
  | deviation
  | range
  /-- Its columns are written, and read back into a fresh aggregate. -/
  | reload

namespace Operation

open Aggregate

/-- The operation by positions, without its answer. -/
def inPlace : Operation → InPlace Float Unit
  | setFloor floor => modify (Aggregate.setFloor · floor)
  | call c => c.inPlace
  | readFrom text limit => discard (InPlace.readFrom text limit)
  | totals => discard InPlace.totals
  | mean => discard InPlace.mean
  | deviation => discard InPlace.deviation
  | range => discard InPlace.range
  | reload => InPlace.reload

def operands : Operation → List (Operand Float)
  | call c => c.operands
  | _ => []

theorem run_discard {β : Type} {p : InPlace Float β} {b : β} {agg agg' : Aggregate Float}
    (h : p.run agg = .ok b agg') : (discard p : InPlace Float Unit).run agg = .ok () agg' :=
  InPlace.run_bind_ok (f := fun _ => pure ()) h

/-- An aggregate in shape has whatever is asked for by position. -/
theorem run_ne_outOfRange {agg : Aggregate Float} (h : agg.Shaped) (op : Operation)
    (ho : ∀ o, .other o ∈ op.operands → o.Shaped) (after : Aggregate Float) :
    op.inPlace.run agg ≠ .error .outOfRange after := by
  cases op with
  | setFloor floor => exact nofun
  | call c =>
    show c.inPlace.run agg ≠ _
    rw [c.run_eq h ho]
    cases c.onValue agg <;> exact nofun
  | readFrom text limit =>
    rw [inPlace, run_discard (InPlace.run_readFrom h text limit)]
    exact nofun
  | totals =>
    rw [inPlace, run_discard (InPlace.run_totals h)]
    exact nofun
  | mean =>
    rw [inPlace, run_discard (InPlace.run_mean h)]
    exact nofun
  | deviation =>
    rw [inPlace, run_discard (InPlace.run_deviation h)]
    exact nofun
  | range =>
    rw [inPlace, run_discard (InPlace.run_range h)]
    exact nofun
  | reload =>
    rw [inPlace, InPlace.run_reload h]
    exact nofun

end Operation

namespace Aggregate

/-- **Balance in every state.**  Take a fresh aggregate of any size and kind and
whatever any steps have made of it, failed calls and merges with itself
included. It has as many columns and as many moments as at the start, and as many
exact sums if it holds whole numbers, none otherwise. The moments of every column
have counted as many values as there are rows. So no operation in place asks for
an item that is not there, and deviations are refused exactly when the moments of
every column are empty. -/
theorem steps_keep_balance {arity : Nat} {kind : NumericKind} {agg : Aggregate Float}
    (h : Relation.ReflTransGen Step (fresh arity kind) agg) :
    agg.arity = arity ∧ agg.kind = kind ∧
    agg.columns.length = arity ∧ agg.moments.length = arity ∧
    agg.exact.length = (if kind = .integer then arity else 0) ∧
    (∀ m ∈ agg.moments, m.count = agg.rows) ∧
    (∀ op : Operation, (∀ o, .other o ∈ op.operands → o.Reachable) → ∀ after,
      op.inPlace.run agg ≠ .error .outOfRange after) ∧
    (∀ spec mode, agg.render spec mode ≠ .error .missingColumn) ∧
    (agg.deviation = .error (.division .deviation) ↔ agg.rows = 0) ∧
    ∀ m ∈ agg.moments, (agg.deviation = .error (.division .deviation) ↔ m.count = 0) := by
  obtain ⟨hr, rfl, rfl⟩ := reachable_of_steps h
  obtain ⟨hshaped, hcounts⟩ := hr.balanced
  have hguard : agg.deviation = .error (.division .deviation) ↔ agg.rows = 0 := by
    unfold deviation
    split <;> simp [*]
  refine ⟨rfl, rfl, hshaped.columns, hshaped.moments, hshaped.exact, hcounts, ?_, ?_, hguard, ?_⟩
  · intro op ho after
    exact op.run_ne_outOfRange hshaped (fun o hmem => (ho o hmem).shaped) after
  · intro spec mode hmissing
    have hrendered := hshaped.rendered spec mode
    rw [hmissing] at hrendered
    cases hrendered
  · intro m hm
    rw [hguard, hcounts m hm]

/-- Two columns of whole numbers: a record is accepted, the next is refused, the
rest is merged with itself twice in one call. -/
def doubledTwice : Aggregate Float :=
  let first := (fresh 2 .integer).afterCall (Call.onValue (fresh 2 .integer) (.ingest "1 -2"))
  let second := first.afterCall (Call.onValue first (.ingest "9223372036854775807 0"))
  second.afterCall (Call.onValue second (.merge [.self, .self]))

theorem steps_keep_balance_doubledTwice :
    doubledTwice.rows = 4 ∧ doubledTwice.moments.length = 2 ∧
    (∀ m ∈ doubledTwice.moments, m.count = 4) ∧
    ∀ after, (Operation.call (.merge [.self])).inPlace.run doubledTwice ≠
      .error .outOfRange after := by
  have hsteps : Relation.ReflTransGen Step (fresh 2 .integer) doubledTwice :=
    .tail (.tail (.tail .refl (.call (.ingest "1 -2") nofun))
      (.call (.ingest "9223372036854775807 0") nofun))
      (.call (.merge [.self, .self]) (by simp [Call.operands]))
  obtain ⟨-, -, -, hmoments, -, hcounts, hinPlace, -⟩ := steps_keep_balance hsteps
  have hrows : doubledTwice.rows = 4 := by decide
  refine ⟨hrows, hmoments, fun m hm => (hcounts m hm).trans hrows, ?_⟩
  exact hinPlace (.call (.merge [.self])) (by simp [Operation.operands, Call.operands])

end Aggregate

end PerfReport
