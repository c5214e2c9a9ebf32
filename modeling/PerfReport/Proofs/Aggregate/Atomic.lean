import PerfReport.Proofs.Aggregate.Collected
import PerfReport.Proofs.Aggregate.InPlace
import PerfReport.Proofs.Aggregate.Reachable
import PerfReport.Proofs.Number.Converted

/-!
# All or nothing

A call in place can stop at any position, after earlier ones were looked at.
Of an aggregate that any calls have led to it then still leaves everything as it
was; and a record that is accepted reaches every column, once.

* `Call`, `Call.run_eq`: any call, in place and on a value;
* `Entry.doubles_ofRecord`, `Entry.wholes_ofRecord`: whole numbers are entered as
  the doubles and as the numbers they are;
* `Column.Absorbed`, `Moments.Absorbed`: what one value does to a column;
* `Absorbed`, `absorbed_of_enter`: what one record does to every position;
* `failed_updates_atomic`: both.
-/

namespace PerfReport

/-- A call that may be refused. -/
inductive Call
  | ingest (line : Text)
  | add (record : Record)
  | merge (others : List (Operand Float))

namespace Call

def inPlace : Call → InPlace Float Unit
  | ingest line => InPlace.ingest line
  | add record => InPlace.add record
  | merge others => InPlace.merge others

def onValue (agg : Aggregate Float) : Call → Except FormatError (Aggregate Float)
  | ingest line => agg.ingest line
  | add record => agg.add record
  | merge others => agg.merge others

/-- The other aggregates that a call reads. -/
def operands : Call → List (Operand Float)
  | ingest _ => []
  | add _ => []
  | merge others => others

theorem run_eq {agg : Aggregate Float} (h : agg.Shaped) {call : Call}
    (ho : ∀ p, .other p ∈ call.operands → p.Shaped) :
    call.inPlace.run agg = InPlace.outcome agg (call.onValue agg) := by
  cases call with
  | ingest line => exact InPlace.run_ingest h line
  | add record => exact InPlace.run_add h record
  | merge others => exact InPlace.run_merge h ho

end Call

namespace InPlace

variable {α : Type} {agg after : Aggregate α} {r : Except FormatError (Aggregate α)}

theorem outcome_eq_ok_iff : outcome agg r = .ok () after ↔ r = .ok after := by
  cases r <;> simp [outcome]

theorem outcome_eq_error_iff {halt : Halt} :
    outcome agg r = .error halt after ↔ after = agg ∧ ∃ e, r = .error e ∧ halt = .refused e := by
  cases r <;> simp [outcome, eq_comm, and_comm]

end InPlace

/-! ## One record in every column -/

namespace Entry

theorem forall₂_of_wholes {record : Record} {values : List Int64}
    (h : record.map Double.toWhole? = values.map some) :
    (values.map Double.ofWhole).Forall₂ (fun x y => (x == y) = true) record := by
  induction record generalizing values with
  | nil =>
    cases values with
    | nil => exact .nil
    | cons n values => simp at h
  | cons x record ih =>
    cases values with
    | nil => simp at h
    | cons n values =>
      obtain ⟨hx, hrest⟩ : Double.toWhole? x = some n ∧
          record.map Double.toWhole? = values.map some := by simpa using h
      exact .cons (Double.ofWhole_beq hx) (ih hrest)

/-- The doubles that a record is entered as equal those it was given as. Only
negative zero is another double than the whole number that it is. -/
theorem doubles_ofRecord {arity : Nat} {kind : NumericKind} {record : Record} {e : Entry}
    (h : ofRecord arity kind record = .ok e) :
    if kind = .integer then e.doubles.Forall₂ (fun x y => (x == y) = true) record
    else e.doubles = record := by
  unfold ofRecord at h
  split at h
  · cases h
  · split at h
    · next hk =>
      obtain ⟨values, hw, rfl⟩ := map_eq_ok_iff.mp h
      obtain ⟨_, hns, rfl⟩ := (Aggregate.wholes_eq_ok_iff 0 [] record values).mp hw
      rw [if_pos hk]
      exact forall₂_of_wholes hns
    · next hk =>
      cases h
      rw [if_neg hk]
      rfl

/-- The exact sums take the whole numbers that the doubles of the record are. -/
theorem wholes_ofRecord {arity : Nat} {record : Record} {e : Entry}
    (h : ofRecord arity .integer record = .ok e) : record.Forall₂ Double.Holds e.wholes := by
  unfold ofRecord at h
  split at h
  · cases h
  · rw [if_pos rfl] at h
    obtain ⟨values, hw, rfl⟩ := map_eq_ok_iff.mp h
    obtain ⟨_, hns, rfl⟩ := (Aggregate.wholes_eq_ok_iff 0 [] record values).mp hw
    exact (Double.forall₂_holds_iff record _).mpr hns

end Entry

/-- The figures of a column, with one value more in them. -/
structure Column.Absorbed (c : Column Float) (x : Float) (c' : Column Float) : Prop where
  sum : c'.sum = c.sum + x
  max : Extremum.IsExtreme false c.max x c'.max
  min : Extremum.IsExtreme true c.min x c'.min

theorem Column.absorbed_add (c : Column Float) (x : Float) : c.Absorbed x (c.add x) := by
  rw [Column.add_eq]
  exact ⟨rfl, Extremum.isExtreme_greater c.max x, Extremum.isExtreme_lesser c.min x⟩

/-- The moments of a column, with one value more in them. The mean moves by a
share of the deviation from it, and the squared deviations grow by the product
of the deviations from the mean before and after that. -/
structure Moments.Absorbed (m : Moments Float) (x : Float) (m' : Moments Float) : Prop where
  count : m'.count = m.count + 1
  mean : m'.mean = m.mean + (x - m.mean) / (m.count + 1).toFloat
  m2 : m'.m2 = m.m2 + (x - m.mean) * (x - m'.mean)

theorem Moments.absorbed_update (m : Moments Float) (x : Float) : m.Absorbed x (m.update x) :=
  ⟨rfl, rfl, rfl⟩

namespace Aggregate

variable {agg after : Aggregate Float} {e : Entry}

/-- One record more, and nothing else: it is counted once, and at every position
its value goes into the figures, the moments and, if it is whole, the exact
sum. A whole number goes into the former as the double closest to it. -/
structure Absorbed (agg : Aggregate Float) (e : Entry) (after : Aggregate Float) : Prop where
  fits : e.Fits agg.arity agg.kind
  static : after.arity = agg.arity ∧ after.kind = agg.kind ∧ after.floor = agg.floor
  shaped : after.Shaped
  rows : after.rows = agg.rows + 1
  rounded : agg.kind = .integer →
    e.wholes.Forall₂ (fun n x => Double.Closest n.toInt x) e.doubles
  column : ∀ i < agg.arity, ∃ x c c', e.doubles[i]? = some x ∧
    agg.columns[i]? = some c ∧ after.columns[i]? = some c' ∧ c.Absorbed x c'
  moments : ∀ i < agg.arity, ∃ x m m', e.doubles[i]? = some x ∧
    agg.moments[i]? = some m ∧ after.moments[i]? = some m' ∧ m.Absorbed x m'
  total : ∀ i, (after.exact.getD i 0).toInt =
    (agg.exact.getD i 0).toInt + (e.wholes.getD i 0).toInt

theorem column_apply (h : agg.Shaped) {record : Record} (hr : record.length = agg.arity)
    {i : Nat} (hi : i < agg.arity) : ∃ x c c', record[i]? = some x ∧
      agg.columns[i]? = some c ∧ (agg.apply record).columns[i]? = some c' ∧ c.Absorbed x c' := by
  have hx := List.getElem?_eq_getElem (hr ▸ hi : i < record.length)
  have hc := List.getElem?_eq_getElem (h.columns ▸ hi : i < agg.columns.length)
  refine ⟨_, _, _, hx, hc, ?_, Column.absorbed_add _ _⟩
  exact List.getElem?_zipWith_eq_some.mpr ⟨_, _, hc, hx, rfl⟩

theorem moments_apply (h : agg.Shaped) {record : Record} (hr : record.length = agg.arity)
    {i : Nat} (hi : i < agg.arity) : ∃ x m m', record[i]? = some x ∧
      agg.moments[i]? = some m ∧ (agg.apply record).moments[i]? = some m' ∧ m.Absorbed x m' := by
  have hx := List.getElem?_eq_getElem (hr ▸ hi : i < record.length)
  have hm := List.getElem?_eq_getElem (h.moments ▸ hi : i < agg.moments.length)
  refine ⟨_, _, _, hx, hm, ?_, Moments.absorbed_update _ _⟩
  exact List.getElem?_zipWith_eq_some.mpr ⟨_, _, hm, hx, rfl⟩

theorem absorbed_of_enter (h : agg.Shaped) (hf : e.Fits agg.arity agg.kind)
    (he : agg.enter e = .ok after) : Absorbed agg e after := by
  cases e with
  | whole values =>
    have hshaped := h.addIntegers hf.2 he
    obtain ⟨sums, hs, rfl⟩ := (addIntegers_eq_ok_iff agg after values).mp he
    have hlen : agg.exact.length = values.length := (h.exact_integer hf.1).trans hf.2.symm
    have hdoubles : (values.map (Arith.ofWhole : Int64 → Float)).length = agg.arity := by
      simpa using hf.2
    have hrounded : values.Forall₂ (fun n x => Double.Closest n.toInt x)
        (values.map (Arith.ofWhole : Int64 → Float)) :=
      List.forall₂_map_right_iff.mpr (List.forall₂_same.mpr fun n _ => Double.closest_ofWhole n)
    exact ⟨hf, ⟨rfl, rfl, rfl⟩, hshaped, rfl, fun _ => hrounded,
      fun _ => column_apply h hdoubles, fun _ => moments_apply h hdoubles,
      (addSums_start_ok hlen hs).2⟩
  | real record =>
    cases he
    exact ⟨hf, ⟨rfl, rfl, rfl⟩, h.apply hf.2, rfl, fun hk => absurd hk hf.1,
      fun _ => column_apply h hf.2, fun _ => moments_apply h hf.2,
      fun _ => (Int.add_zero _).symm⟩

theorem absorbed_of_ingest {line : Text} (h : agg.Shaped) (hi : agg.ingest line = .ok after) :
    ∃ e, Entry.ofLine agg.arity agg.kind line = .ok e ∧ Absorbed agg e after := by
  rw [ingest_eq_enter] at hi
  obtain ⟨e, hl, he⟩ := bind_eq_ok_iff.mp hi
  exact ⟨e, hl, absorbed_of_enter h (Entry.fits_ofLine hl) he⟩

theorem absorbed_of_add {record : Record} (h : agg.Shaped) (ha : agg.add record = .ok after) :
    ∃ e, Entry.ofRecord agg.arity agg.kind record = .ok e ∧ Absorbed agg e after := by
  rw [add_eq_enter] at ha
  obtain ⟨e, hr, he⟩ := bind_eq_ok_iff.mp ha
  exact ⟨e, hr, absorbed_of_enter h (Entry.fits_ofRecord hr) he⟩

/-! ## Any call -/

/-- **All or nothing.**  A call in place on an aggregate that any calls have led
to, with any line, any record or any such aggregates, that stops has been
refused and has left the aggregate as it was, every part of it. A line or a
record that is accepted is counted as one row and has reached every column and
all moments, each by its own value; a record of doubles as doubles equal to
these, and the exact sums by the whole numbers that they are. -/
theorem failed_updates_atomic (h : agg.Reachable) :
    (∀ call : Call, (∀ o, .other o ∈ call.operands → o.Reachable) → ∀ halt after,
      call.inPlace.run agg = .error halt after →
        after = agg ∧ ∃ e, call.onValue agg = .error e ∧ halt = .refused e) ∧
    (∀ line after, (InPlace.ingest line).run agg = .ok () after →
      agg.ingest line = .ok after ∧
        ∃ e, Entry.ofLine agg.arity agg.kind line = .ok e ∧ Absorbed agg e after) ∧
    (∀ record after, (InPlace.add record).run agg = .ok () after →
      agg.add record = .ok after ∧
        ∃ e, Entry.ofRecord agg.arity agg.kind record = .ok e ∧ Absorbed agg e after ∧
          if agg.kind = .integer then
            e.doubles.Forall₂ (fun x y => (x == y) = true) record ∧
              record.Forall₂ Double.Holds e.wholes
          else e.doubles = record) := by
  refine ⟨?_, ?_, ?_⟩
  · intro call ho halt after hrun
    rw [Call.run_eq h.shaped fun p hp => (ho p hp).shaped] at hrun
    exact InPlace.outcome_eq_error_iff.mp hrun
  · intro line after hrun
    rw [InPlace.run_ingest h.shaped] at hrun
    have hi := InPlace.outcome_eq_ok_iff.mp hrun
    exact ⟨hi, absorbed_of_ingest h.shaped hi⟩
  · intro record after hrun
    rw [InPlace.run_add h.shaped] at hrun
    have ha := InPlace.outcome_eq_ok_iff.mp hrun
    obtain ⟨e, hr, habsorbed⟩ := absorbed_of_add h.shaped ha
    refine ⟨ha, e, hr, habsorbed, ?_⟩
    have hdoubles := Entry.doubles_ofRecord hr
    split
    · next hk =>
      rw [if_pos hk] at hdoubles
      exact ⟨hdoubles, Entry.wholes_ofRecord (hk ▸ hr)⟩
    · next hk => rwa [if_neg hk] at hdoubles

/-- Two columns of whole numbers, the second of them full. -/
def halfFull : Aggregate Float :=
  (Aggregate.fresh 2 .integer).afterCall
    ((Aggregate.fresh 2 .integer).ingest "1 9223372036854775807")

theorem failed_updates_atomic_halfFull :
    halfFull.exact = [1, 9223372036854775807] ∧
    (∃ after, (InPlace.ingest "1 1").run halfFull = .error (.refused (.overflow 1 1)) after ∧
      after = halfFull) ∧
    ∃ after, (InPlace.add [2.0, -1.0]).run halfFull = .ok () after ∧
      after.rows = halfFull.rows + 1 ∧
      ∃ m m', halfFull.moments[0]? = some m ∧ after.moments[0]? = some m' ∧
        m'.count = m.count + 1 := by
  have h : halfFull.Reachable := .ingest _ (.fresh 2 .integer)
  obtain ⟨hfailed, -, hadd⟩ := failed_updates_atomic h
  have hover : ∃ after, (InPlace.ingest "1 1").run halfFull =
      .error (.refused (.overflow 1 1)) after := ⟨_, rfl⟩
  have hbelow : ∃ after, (InPlace.add [2.0, -1.0]).run halfFull = .ok () after := ⟨_, rfl⟩
  obtain ⟨after, hover⟩ := hover
  obtain ⟨after', hbelow⟩ := hbelow
  obtain ⟨-, e, -, habsorbed, -⟩ := hadd _ _ hbelow
  obtain ⟨x, m, m', -, hm, hm', hmoments⟩ := habsorbed.moments 0 (by decide)
  exact ⟨rfl, ⟨after, hover, (hfailed (.ingest "1 1") nofun _ _ hover).1⟩,
    after', hbelow, habsorbed.rows, m, m', hm, hm', hmoments.count⟩

end Aggregate

end PerfReport
