import PerfReport.Proofs.Aggregate.Columns
import PerfReport.Proofs.Aggregate.Totals
import PerfReport.Proofs.Number.Extremum

/-!
# Records in any order

Rows, counts, extrema and exact totals do not show how records were spread over
aggregates, nor in which order these were merged: all of them are folds over
the records with an operation that may be reordered, and the seeds of the
extrema, which every part brings along, count once.

* `extremaLaw`: what adding and joining keep of the extrema of a column;
* `Entry`: one record as it is entered, whatever it was read from;
* `Collected`: the entries of an aggregate;
* `Collected.reflects`, `Collected.tallied`: its figures are those of its entries;
* `collected_order_independent`: two ways to collect the same entries.
-/

namespace PerfReport

open Extremum (greater lesser)

/-! ## One column -/

theorem Moments.count_merge {α : Type} [Arith α] (w other : Moments α) :
    (w.merge other).count = w.count + other.count := by
  unfold Moments.merge
  split
  · next h => simp [h]
  · split
    · next h => simp [h]
    · rfl

/-- The extrema of the values and of the seeds, and the number of values. -/
structure Extrema (c : Column Float) (m : Moments Float) (xs : List Float) : Prop where
  max : c.max = xs.foldl greater Arith.bottom
  min : c.min = xs.foldl lesser Arith.top
  count : m.count = UInt64.ofNat xs.length

theorem extremaLaw : ColumnLaw Extrema where
  fresh := ⟨rfl, rfl, rfl⟩
  add {c m xs} x h := by
    refine ⟨?_, ?_, ?_⟩
    · rw [List.foldl_append, ← h.max]
      rfl
    · rw [List.foldl_append, ← h.min]
      rfl
    · rw [List.length_append, UInt64.ofNat_add, ← h.count]
      rfl
  merge {c c' m m' xs ys} h h' := by
    refine ⟨?_, ?_, ?_⟩
    · rw [Extremum.foldl_append_op greater, ← h.max, ← h'.max]
      rfl
    · rw [Extremum.foldl_append_op lesser, ← h.min, ← h'.min]
      rfl
    · rw [Moments.count_merge, List.length_append, UInt64.ofNat_add, h.count, h'.count]

/-! ## Entries -/

/-- One record as it is entered: whole numbers, each exact, or any doubles. -/
inductive Entry
  | whole (values : List Int64)
  | real (record : Record)
  deriving DecidableEq

namespace Entry

/-- The doubles that the columns are given. -/
def doubles : Entry → Record
  | whole values => values.map Arith.ofWhole
  | real record => record

/-- The whole numbers that the exact sums are given. -/
def wholes : Entry → List Int64
  | whole values => values
  | real _ => []

/-- Whole numbers for that kind only, and as many as there are columns. -/
def Fits (arity : Nat) (kind : NumericKind) : Entry → Prop
  | whole values => kind = .integer ∧ values.length = arity
  | real record => kind ≠ .integer ∧ record.length = arity

/-- What a line enters. -/
def ofLine (arity : Nat) (kind : NumericKind) (line : Text) : Except FormatError Entry :=
  if kind = .integer then whole <$> parseIntegers line arity
  else real <$> parseRecord line arity kind

/-- What a record of doubles enters. -/
def ofRecord (arity : Nat) (kind : NumericKind) (record : Record) : Except FormatError Entry :=
  if record.length ≠ arity then .error (.fieldCount arity record.length)
  else if kind = .integer then whole <$> Aggregate.wholes 0 [] record
  else .ok (real record)

theorem fits_ofLine {arity : Nat} {kind : NumericKind} {line : Text} {e : Entry}
    (h : ofLine arity kind line = .ok e) : e.Fits arity kind := by
  unfold ofLine at h
  split at h
  · next hk =>
    obtain ⟨values, hv, rfl⟩ := map_eq_ok_iff.mp h
    exact ⟨hk, length_parseIntegers hv⟩
  · next hk =>
    obtain ⟨record, hr, rfl⟩ := map_eq_ok_iff.mp h
    exact ⟨hk, length_parseRecord hr⟩

theorem fits_ofRecord {arity : Nat} {kind : NumericKind} {record : Record} {e : Entry}
    (h : ofRecord arity kind record = .ok e) : e.Fits arity kind := by
  unfold ofRecord at h
  split at h
  · cases h
  · next hn =>
    split at h
    · next hk =>
      obtain ⟨values, hw, rfl⟩ := map_eq_ok_iff.mp h
      obtain ⟨_, hns, rfl⟩ := (Aggregate.wholes_eq_ok_iff 0 [] record values).mp hw
      have hlen : record.length = values.length := by simpa using congrArg List.length hns
      exact ⟨hk, hlen.symm.trans (not_not.mp hn)⟩
    · next hk =>
      cases h
      exact ⟨hk, not_not.mp hn⟩

theorem ofRecord_real {arity : Nat} {kind : NumericKind} {record : Record} (hk : kind ≠ .integer)
    (hn : record.length = arity) : ofRecord arity kind record = .ok (real record) := by
  rw [ofRecord, if_neg (by simp [hn]), if_neg hk]

end Entry

namespace Aggregate

/-- One entry more. -/
def enter (agg : Aggregate Float) : Entry → Except FormatError (Aggregate Float)
  | .whole values => agg.addIntegers values
  | .real record => .ok (agg.apply record)

theorem ingest_eq_enter (agg : Aggregate Float) (line : Text) :
    agg.ingest line = Entry.ofLine agg.arity agg.kind line >>= agg.enter := by
  rw [ingest, Entry.ofLine]
  split
  · cases parseIntegers line agg.arity <;> rfl
  · next hk =>
    cases hr : parseRecord line agg.arity agg.kind with
    | error e => rfl
    | ok record => exact (add_eq_ok_iff agg _ record).mpr ⟨length_parseRecord hr, .inr ⟨hk, rfl⟩⟩

theorem add_eq_enter (agg : Aggregate Float) (record : Record) :
    agg.add record = Entry.ofRecord agg.arity agg.kind record >>= agg.enter := by
  rw [add, Entry.ofRecord]
  split
  · rfl
  · split
    · cases wholes 0 [] record <;> rfl
    · rfl

variable {agg agg' : Aggregate Float} {e : Entry} {es es' : List Entry}

theorem Reflects.enter {R : Column Float → Moments Float → List Float → Prop} (hR : ColumnLaw R)
    {records : List Record} (h : agg.Reflects R records) (hf : e.Fits agg.arity agg.kind)
    (he : agg.enter e = .ok agg') : agg'.Reflects R (records ++ [e.doubles]) := by
  cases e with
  | whole values => exact h.addIntegers hR hf.2 he
  | real record =>
    cases he
    exact h.apply hR hf.2

theorem Tallied.enter {records : List (List Int64)} (h : Tallied agg records)
    (hf : e.Fits agg.arity agg.kind) (he : agg.enter e = .ok agg') :
    Tallied agg' (records ++ [e.wholes]) := by
  cases e with
  | whole values => exact h.addIntegers hf.2 he
  | real record => exact absurd h.kind hf.1

theorem enter_static (he : agg.enter e = .ok agg') :
    agg'.arity = agg.arity ∧ agg'.kind = agg.kind ∧ agg'.floor = agg.floor := by
  cases e with
  | whole values => exact addIntegers_static he
  | real record =>
    cases he
    exact ⟨rfl, rfl, rfl⟩

/-! ## Collecting -/

/-- The entries of an aggregate: none at first, one more for every line that is
ingested and every record that is added, and those of the others for a merge.
Every way to spread records over fresh aggregates and to join these, in any
order and grouping, is such a collection. -/
inductive Collected : Aggregate Float → List Entry → Prop
  | fresh (arity : Nat) (kind : NumericKind) : Collected (.fresh arity kind) []
  | setFloor {agg : Aggregate Float} {es : List Entry} (floor : Bool) :
      Collected agg es → Collected (agg.setFloor floor) es
  | ingest {agg agg' : Aggregate Float} {es : List Entry} {e : Entry} {line : Text} :
      Collected agg es → Entry.ofLine agg.arity agg.kind line = .ok e →
        agg.ingest line = .ok agg' → Collected agg' (es ++ [e])
  | add {agg agg' : Aggregate Float} {es : List Entry} {e : Entry} {record : Record} :
      Collected agg es → Entry.ofRecord agg.arity agg.kind record = .ok e →
        agg.add record = .ok agg' → Collected agg' (es ++ [e])
  | merge {agg agg' : Aggregate Float} {es : List Entry}
      {others : List (Aggregate Float × List Entry)} : Collected agg es →
        (∀ o ∈ others, Collected o.1 o.2) →
        agg.merge ((others.map Prod.fst).map .other) = .ok agg' →
        Collected agg' (es ++ (others.map Prod.snd).flatten)

/-- A line that is ingested was entered as what it says. -/
theorem enter_of_ingest {line : Text} (hl : Entry.ofLine agg.arity agg.kind line = .ok e)
    (hi : agg.ingest line = .ok agg') : agg.enter e = .ok agg' := by
  rw [ingest_eq_enter, hl] at hi
  exact hi

theorem enter_of_add {record : Record} (hr : Entry.ofRecord agg.arity agg.kind record = .ok e)
    (ha : agg.add record = .ok agg') : agg.enter e = .ok agg' := by
  rw [add_eq_enter, hr] at ha
  exact ha

/-- Real numbers are never refused. -/
theorem Collected.apply {record : Record} (h : Collected agg es) (hk : agg.kind ≠ .integer)
    (hn : record.length = agg.arity) :
    Collected (agg.apply record) (es ++ [.real record]) :=
  h.add (Entry.ofRecord_real hk hn) ((add_eq_ok_iff agg _ record).mpr ⟨hn, .inr ⟨hk, rfl⟩⟩)

/-- Others with their entries are parts with their records. -/
def partsOf (others : List (Aggregate Float × List Entry)) : List (Part Float) :=
  others.map fun o => some (o.1, o.2.map Entry.doubles)

theorem operands_partsOf (others : List (Aggregate Float × List Entry)) :
    (partsOf others).map Part.operand = (others.map Prod.fst).map .other := by
  simp [partsOf, Part.operand]

theorem foldl_partsOf (others : List (Aggregate Float × List Entry)) (es : List Entry) :
    (partsOf others).foldl Part.appendTo (es.map Entry.doubles) =
      (es ++ (others.map Prod.snd).flatten).map Entry.doubles := by
  induction others generalizing es with
  | nil => simp [partsOf]
  | cons o os ih =>
    have hstep := ih (es ++ o.2)
    rw [List.map_append] at hstep
    simpa [partsOf, Part.appendTo] using hstep

theorem Collected.reflects (h : Collected agg es) :
    agg.Reflects Extrema (es.map Entry.doubles) := by
  induction h with
  | fresh arity kind => exact reflects_fresh extremaLaw arity kind
  | setFloor floor _ ih => exact ih.setFloor floor
  | ingest _ hl hi ih =>
    rw [List.map_append]
    exact ih.enter extremaLaw (Entry.fits_ofLine hl) (enter_of_ingest hl hi)
  | add _ hr ha ih =>
    rw [List.map_append]
    exact ih.enter extremaLaw (Entry.fits_ofRecord hr) (enter_of_add hr ha)
  | @merge agg agg' es others _ _ hm ih iho =>
    rw [← operands_partsOf] at hm
    rw [← foldl_partsOf]
    refine ih.merge extremaLaw ?_ hm
    intro p hp
    obtain ⟨o, hmem, ho⟩ := List.mem_map.mp hp
    cases ho
    exact iho o hmem

theorem flatten_map_wholes (others : List (Aggregate Float × List Entry)) :
    ((others.map fun o => (o.1, o.2.map Entry.wholes)).map Prod.snd).flatten =
      (others.map Prod.snd).flatten.map Entry.wholes := by
  simp [List.map_flatten, List.map_map, Function.comp_def]

/-- The others of a merge are of the same kind, so that their sums are exact
as well. -/
theorem Collected.tallied (h : Collected agg es) (hk : agg.kind = .integer) :
    Tallied agg (es.map Entry.wholes) := by
  induction h with
  | fresh arity kind =>
    cases hk
    exact (Denotes.fresh arity).tallied
  | setFloor floor _ ih =>
    have h := ih hk
    exact ⟨h.kind, h.length, h.width, h.total, h.rows⟩
  | ingest _ hl hi ih =>
    have he := enter_of_ingest hl hi
    rw [List.map_append]
    exact (ih ((enter_static he).2.1 ▸ hk)).enter (Entry.fits_ofLine hl) he
  | add _ hr ha ih =>
    have he := enter_of_add hr ha
    rw [List.map_append]
    exact (ih ((enter_static he).2.1 ▸ hk)).enter (Entry.fits_ofRecord hr) he
  | @merge agg agg' es others _ _ hm ih iho =>
    have hkind : agg.kind = .integer := (merge_static hm).2.1 ▸ hk
    have hfst : (others.map fun o => (o.1, o.2.map Entry.wholes)).map Prod.fst =
        others.map Prod.fst := by simp [List.map_map, Function.comp_def]
    have hc := ((merge_eq_ok_iff agg agg' _).mp hm).1
    rw [← hfst] at hm
    rw [List.map_append, ← flatten_map_wholes]
    refine (ih hkind).merge ?_ hm
    intro p hp
    obtain ⟨o, hmem, rfl⟩ := List.mem_map.mp hp
    have ho := hc (.other o.1) (List.mem_map_of_mem (List.mem_map_of_mem hmem))
    exact iho o hmem (ho.2.trans hkind)

/-! ## The same entries in another order -/

theorem Collected.rows_perm (h : Collected agg es) (h' : Collected agg' es') (hp : es.Perm es') :
    agg.rows = agg'.rows := by
  rw [h.reflects.rows, h'.reflects.rows, List.length_map, List.length_map, hp.length_eq]

theorem Collected.counts_perm (h : Collected agg es) (h' : Collected agg' es') (hp : es.Perm es')
    (harity : agg.arity = agg'.arity) :
    agg.moments.map Moments.count = agg'.moments.map Moments.count := by
  have hcounts {agg : Aggregate Float} {es : List Entry} (h : Collected agg es) :
      agg.moments.map Moments.count =
        (List.range agg.arity).map fun _ => UInt64.ofNat es.length := by
    refine h.reflects.map_moments (g := fun _ => UInt64.ofNat es.length) ?_
    intro c m xs hlen hx
    rw [hx.count, hlen, List.length_map]
  rw [hcounts h, hcounts h', harity, hp.length_eq]

/-- Extrema may be taken in any order. -/
theorem Collected.range_perm (h : Collected agg es) (h' : Collected agg' es') (hp : es.Perm es')
    (harity : agg.arity = agg'.arity) : agg.range? = agg'.range? := by
  have hmin : agg.columns.map Column.min = agg'.columns.map Column.min :=
    h.reflects.map_columns_perm h'.reflects (hp.map _) harity (fun _ _ _ hx => hx.min)
      fun hxs => hxs.foldl_op_eq
  have hmax : agg.columns.map Column.max = agg'.columns.map Column.max :=
    h.reflects.map_columns_perm h'.reflects (hp.map _) harity (fun _ _ _ hx => hx.max)
      fun hxs => hxs.foldl_op_eq
  rw [range?, range?, h.rows_perm h' hp, hmin, hmax]

theorem columnTotal_perm {records records' : List (List Int64)} (hp : records.Perm records')
    (i : Nat) : columnTotal records i = columnTotal records' i := by
  induction hp with
  | nil => rfl
  | cons values _ ih => simp only [columnTotal, ih]
  | swap values values' records =>
    simp only [columnTotal]
    omega
  | trans _ _ ih ih' => exact ih.trans ih'

/-- Sums that are exact are determined by the integers that they stand for. -/
theorem Tallied.exact_eq {records records' : List (List Int64)} (h : Tallied agg records)
    (h' : Tallied agg' records') (harity : agg.arity = agg'.arity)
    (ht : ∀ i, columnTotal records i = columnTotal records' i) : agg.exact = agg'.exact := by
  apply List.ext_getElem
  · rw [h.length, h'.length, harity]
  · intro i hi hi'
    apply Int64.toInt_inj.mp
    have htotal : (agg.exact.getD i 0).toInt = (agg'.exact.getD i 0).toInt := by
      rw [h.total, h'.total, ht]
    simpa [hi, hi'] using htotal

theorem Collected.integerTotals_perm (h : Collected agg es) (h' : Collected agg' es')
    (hp : es.Perm es') (harity : agg.arity = agg'.arity) (hkind : agg.kind = agg'.kind) :
    agg.integerTotals? = agg'.integerTotals? := by
  by_cases hk : agg.kind = .integer
  · have hk' : agg'.kind = .integer := hkind ▸ hk
    rw [integerTotals?, integerTotals?, if_pos hk, if_pos hk',
      (h.tallied hk).exact_eq (h'.tallied hk') harity (columnTotal_perm (hp.map _))]
  · rw [integerTotals?, integerTotals?, if_neg hk, if_neg (hkind ▸ hk)]

/-- **Order and split do not show.**  Two aggregates of the same arity and kind
that have collected the same records, each any number of times but as often as
the other, have the same rows and counts, the same least and greatest value of
every column, bit for bit with one indefinite value, and for whole numbers the
same exact totals: however the records were spread over fresh aggregates, and
in whatever order and grouping these were merged. -/
theorem collected_order_independent (h : Collected agg es) (h' : Collected agg' es')
    (hp : es.Perm es') (harity : agg.arity = agg'.arity) (hkind : agg.kind = agg'.kind) :
    agg.rows = agg'.rows ∧
    agg.moments.map Moments.count = agg'.moments.map Moments.count ∧
    agg.range? = agg'.range? ∧
    agg.integerTotals? = agg'.integerTotals? :=
  ⟨h.rows_perm h' hp, h.counts_perm h' hp harity, h.range_perm h' hp harity,
    h.integerTotals_perm h' hp harity hkind⟩

/-- One column with the indefinite value, negative zero and infinity. -/
def inLine : Aggregate Float :=
  (((Aggregate.fresh 1 .float).apply [0.0 / 0.0]).apply [-0.0]).apply [1.0 / 0.0]

/-- The same values, each in a part of its own. -/
def inParts : Aggregate Float :=
  [.other ((Aggregate.fresh 1 .float).apply [-0.0]),
    .other ((Aggregate.fresh 1 .float).apply [0.0 / 0.0])].foldl Aggregate.absorb
      ((Aggregate.fresh 1 .float).apply [1.0 / 0.0])

theorem collected_inLine_inParts :
    inLine.range? = some ([0.0 / 0.0], [1.0 / 0.0]) ∧ inParts.range? = inLine.range? ∧
      inParts.rows = inLine.rows := by
  have hlone (x : Float) : Collected ((Aggregate.fresh 1 .float).apply [x]) [.real [x]] :=
    (Collected.fresh 1 .float).apply (by decide) rfl
  have hline : Collected inLine [.real [0.0 / 0.0], .real [-0.0], .real [1.0 / 0.0]] :=
    ((hlone (0.0 / 0.0)).apply (by decide) rfl).apply (by decide) rfl
  have hothers : ∀ o ∈ [((Aggregate.fresh 1 .float).apply [-0.0], [Entry.real [-0.0]]),
      ((Aggregate.fresh 1 .float).apply [0.0 / 0.0], [Entry.real [0.0 / 0.0]])],
      Collected o.1 o.2 := by
    simp only [List.mem_cons, List.not_mem_nil, or_false, forall_eq_or_imp, forall_eq]
    exact ⟨hlone _, hlone _⟩
  have hparts : Collected inParts [.real [1.0 / 0.0], .real [-0.0], .real [0.0 / 0.0]] :=
    (hlone (1.0 / 0.0)).merge hothers rfl
  have hperm := List.reverse_perm [Entry.real [0.0 / 0.0], .real [-0.0], .real [1.0 / 0.0]]
  obtain ⟨hrows, -, hrange, -⟩ := collected_order_independent hparts hline hperm rfl rfl
  exact ⟨rfl, hrange, hrows⟩

end Aggregate

end PerfReport
