import PerfReport.Proofs.Aggregate.Shape

/-!
# Column by column

The columns of an aggregate know nothing of each other. What adding a value
and joining two parts keep of one column, records and merges therefore keep of
all of them.

* `ColumnLaw`: a relation between a column and its values that both keep;
* `Reflects`: it holds of every column of an aggregate and its records;
* `Reflects.apply`, `Reflects.addIntegers`: one record more;
* `Reflects.merge`: several parts more, the receiver itself among them.
-/

namespace PerfReport

variable {α : Type} [Arith α]

theorem Column.add_eq (c : Column α) (x : α) :
    c.add x = ⟨c.sum + x, Arith.greater c.max x, Arith.lesser c.min x⟩ := rfl

theorem Column.merge_eq (c other : Column α) : c.merge other =
    ⟨c.sum + other.sum, Arith.greater c.max other.max, Arith.lesser c.min other.min⟩ := rfl

/-- The values of one column. -/
def columnValues (records : List (List α)) (i : Nat) : List α :=
  records.map fun r => r.getD i Arith.zero

theorem columnValues_append (records records' : List (List α)) (i : Nat) :
    columnValues (records ++ records') i = columnValues records i ++ columnValues records' i :=
  List.map_append

theorem columnValues_snoc (records : List (List α)) {record : List α} {i : Nat} {x : α}
    (hx : record[i]? = some x) :
    columnValues (records ++ [record]) i = columnValues records i ++ [x] := by
  simp [columnValues, hx]

theorem length_columnValues (records : List (List α)) (i : Nat) :
    (columnValues records i).length = records.length := by
  simp [columnValues]

/-- A relation between a column, its moments and the values in them: it holds
of nothing, and is kept by one value more and by joining two parts. -/
structure ColumnLaw (R : Column α → Moments α → List α → Prop) : Prop where
  fresh : R .fresh .fresh []
  add : ∀ {c : Column α} {m : Moments α} {xs : List α} (x : α), R c m xs →
    R (c.add x) (m.update x) (xs ++ [x])
  merge : ∀ {c c' : Column α} {m m' : Moments α} {xs ys : List α}, R c m xs → R c' m' ys →
    R (c.merge c') (m.merge m') (xs ++ ys)

namespace Aggregate

/-- A part of a merge: the receiver once more, or another aggregate with the
records that it stands for. -/
abbrev Part (α : Type) := Option (Aggregate α × List (List α))

namespace Part

def operand {α : Type} : Part α → Operand α
  | none => .self
  | some (other, _) => .other other

/-- The records of a receiver after one part more. -/
def appendTo {α : Type} (records : List (List α)) : Part α → List (List α)
  | none => records ++ records
  | some (_, others) => records ++ others

end Part

/-- An aggregate stands for these records: there are as many rows, and every
column is related to its values. -/
structure Reflects (R : Column α → Moments α → List α → Prop) (agg : Aggregate α)
    (records : List (List α)) : Prop where
  shaped : agg.Shaped
  width : ∀ r ∈ records, r.length = agg.arity
  rows : agg.rows = UInt64.ofNat records.length
  column : ∀ i c m, agg.columns[i]? = some c → agg.moments[i]? = some m →
    R c m (columnValues records i)

variable {R : Column α → Moments α → List α → Prop} {agg agg' : Aggregate α}
  {records records' : List (List α)}

theorem reflects_fresh (hR : ColumnLaw R) (arity : Nat) (kind : NumericKind) :
    (fresh arity kind : Aggregate α).Reflects R [] := by
  refine ⟨shaped_fresh arity kind, nofun, rfl, ?_⟩
  intro i c m hc hm
  simp only [fresh, List.getElem?_replicate, Option.ite_none_right_eq_some,
    Option.some.injEq] at hc hm
  rw [← hc.2, ← hm.2]
  exact hR.fresh

theorem Reflects.setFloor (h : agg.Reflects R records) (floor : Bool) :
    (agg.setFloor floor).Reflects R records :=
  ⟨h.shaped.setFloor floor, h.width, h.rows, h.column⟩

theorem Reflects.apply (hR : ColumnLaw R) (h : agg.Reflects R records) {record : List α}
    (hr : record.length = agg.arity) : (agg.apply record).Reflects R (records ++ [record]) := by
  refine ⟨h.shaped.apply hr, ?_, ?_, ?_⟩
  · intro r hmem
    rcases List.mem_append.mp hmem with hmem | hmem
    · exact h.width r hmem
    · rw [List.mem_singleton.mp hmem]
      exact hr
  · simp [Aggregate.apply, h.rows, UInt64.ofNat_add]
  · intro i c m hc hm
    obtain ⟨c₀, x, hc₀, hx, rfl⟩ := List.getElem?_zipWith_eq_some.mp hc
    obtain ⟨m₀, y, hm₀, hy, rfl⟩ := List.getElem?_zipWith_eq_some.mp hm
    obtain rfl : x = y := Option.some.inj (hx.symm.trans hy)
    rw [columnValues_snoc records hx]
    exact hR.add x (h.column i c₀ m₀ hc₀ hm₀)

/-- Exact sums are no part of a column. -/
theorem Reflects.addIntegers (hR : ColumnLaw R) (h : agg.Reflects R records)
    {values : List Int64} (hv : values.length = agg.arity)
    (ha : agg.addIntegers values = .ok agg') :
    agg'.Reflects R (records ++ [values.map Arith.ofWhole]) := by
  have hshaped := h.shaped.addIntegers hv ha
  obtain ⟨sums, -, rfl⟩ := (addIntegers_eq_ok_iff agg agg' values).mp ha
  have hlen : (values.map (Arith.ofWhole : Int64 → α)).length = agg.arity := by simpa using hv
  have happly := h.apply hR hlen
  exact ⟨hshaped, happly.width, happly.rows, happly.column⟩

theorem Reflects.absorb (hR : ColumnLaw R) (h : agg.Reflects R records) {o : Operand α}
    (hc : agg.Compatible (o.resolve agg)) (ho : (o.resolve agg).Reflects R records') :
    (agg.absorb o).Reflects R (records ++ records') := by
  refine ⟨h.shaped.absorb hc ho.shaped, ?_, ?_, ?_⟩
  · intro r hmem
    rcases List.mem_append.mp hmem with hmem | hmem
    · exact h.width r hmem
    · exact (ho.width r hmem).trans hc.1
  · simp [Aggregate.absorb, h.rows, ho.rows, UInt64.ofNat_add]
  · intro i c m hcol hmom
    obtain ⟨c₀, c₁, hc₀, hc₁, rfl⟩ := List.getElem?_zipWith_eq_some.mp hcol
    obtain ⟨m₀, m₁, hm₀, hm₁, rfl⟩ := List.getElem?_zipWith_eq_some.mp hmom
    rw [columnValues_append]
    exact hR.merge (h.column i c₀ m₀ hc₀ hm₀) (ho.column i c₁ m₁ hc₁ hm₁)

/-- The induction is on the parts still to be absorbed. The receiver stands
for what it has become by then. -/
theorem Reflects.foldl_absorb (hR : ColumnLaw R) {parts : List (Part α)}
    (h : agg.Reflects R records) (hc : ∀ p, some p ∈ parts → agg.Compatible p.1)
    (ho : ∀ p, some p ∈ parts → p.1.Reflects R p.2) :
    ((parts.map Part.operand).foldl Aggregate.absorb agg).Reflects R
      (parts.foldl Part.appendTo records) := by
  induction parts generalizing agg records with
  | nil => exact h
  | cons part parts ih =>
    have hstep : (agg.absorb part.operand).Reflects R (part.appendTo records) := by
      cases part with
      | none => exact h.absorb hR ⟨rfl, rfl⟩ h
      | some p =>
        exact h.absorb hR (hc p (List.mem_cons_self ..)) (ho p (List.mem_cons_self ..))
    exact ih hstep (fun p hp => hc p (List.mem_cons_of_mem _ hp))
      (fun p hp => ho p (List.mem_cons_of_mem _ hp))

theorem Reflects.merge (hR : ColumnLaw R) {parts : List (Part α)} (h : agg.Reflects R records)
    (ho : ∀ p, some p ∈ parts → p.1.Reflects R p.2)
    (hm : agg.merge (parts.map Part.operand) = .ok agg') :
    agg'.Reflects R (parts.foldl Part.appendTo records) := by
  have hothers : ∀ o, .other o ∈ parts.map Part.operand → o.Shaped := by
    intro o hmem
    obtain ⟨part, hpart, ho'⟩ := List.mem_map.mp hmem
    cases part with
    | none => cases ho'
    | some p =>
      cases ho'
      exact (ho p hpart).shaped
  have hshaped := h.shaped.merge hothers hm
  obtain ⟨hc, sums, -, rfl⟩ := (merge_eq_ok_iff agg agg' _).mp hm
  have hfold := h.foldl_absorb hR (fun p hp => hc _ (List.mem_map_of_mem hp)) ho
  exact ⟨hshaped, hfold.width, hfold.rows, hfold.column⟩

/-- Every column is there. -/
theorem Reflects.exists_column (h : agg.Reflects R records) {i : Nat} (hi : i < agg.arity) :
    ∃ c m, agg.columns[i]? = some c ∧ agg.moments[i]? = some m ∧ R c m (columnValues records i) := by
  have hc : i < agg.columns.length := by rwa [h.shaped.columns]
  have hm : i < agg.moments.length := by rwa [h.shaped.moments]
  exact ⟨_, _, List.getElem?_eq_getElem hc, List.getElem?_eq_getElem hm,
    h.column i _ _ (List.getElem?_eq_getElem hc) (List.getElem?_eq_getElem hm)⟩

/-- A figure of every column, from its values. -/
theorem Reflects.map_columns {β : Type} (h : agg.Reflects R records) {f : Column α → β}
    {g : List α → β} (hf : ∀ c m xs, xs.length = records.length → R c m xs → f c = g xs) :
    agg.columns.map f = (List.range agg.arity).map fun i => g (columnValues records i) := by
  apply List.ext_getElem
  · simp [h.shaped.columns]
  · intro i hi hi'
    obtain ⟨c, m, hc, -, hR⟩ := h.exists_column (by simpa using hi')
    obtain ⟨hlt, rfl⟩ := List.getElem?_eq_some_iff.mp hc
    simpa using hf _ m _ (length_columnValues records i) hR

theorem Reflects.map_moments {β : Type} (h : agg.Reflects R records) {f : Moments α → β}
    {g : List α → β} (hf : ∀ c m xs, xs.length = records.length → R c m xs → f m = g xs) :
    agg.moments.map f = (List.range agg.arity).map fun i => g (columnValues records i) := by
  apply List.ext_getElem
  · simp [h.shaped.moments]
  · intro i hi hi'
    obtain ⟨c, m, -, hm, hR⟩ := h.exists_column (by simpa using hi')
    obtain ⟨hlt, rfl⟩ := List.getElem?_eq_some_iff.mp hm
    simpa using hf c _ _ (length_columnValues records i) hR

/-- What does not depend on the order of the values is the same for the same
records in another order. -/
theorem map_columnValues_perm {β : Type} {g : List α → β}
    (hg : ∀ {xs ys : List α}, xs.Perm ys → g xs = g ys) (hp : records.Perm records')
    (arity : Nat) : (List.range arity).map (fun i => g (columnValues records i)) =
      (List.range arity).map fun i => g (columnValues records' i) := by
  apply List.map_congr_left
  intro i _
  exact hg (hp.map _)

theorem Reflects.map_columns_perm {β : Type} (h : agg.Reflects R records)
    (h' : agg'.Reflects R records') (hp : records.Perm records') (harity : agg.arity = agg'.arity)
    {f : Column α → β} {g : List α → β} (hf : ∀ c m xs, R c m xs → f c = g xs)
    (hg : ∀ {xs ys : List α}, xs.Perm ys → g xs = g ys) :
    agg.columns.map f = agg'.columns.map f := by
  rw [h.map_columns fun c m xs _ => hf c m xs, h'.map_columns fun c m xs _ => hf c m xs, harity]
  exact map_columnValues_perm hg hp _

/-! ## What no call changes -/

theorem foldl_absorb_static (others : List (Operand α)) (agg : Aggregate α) :
    (others.foldl Aggregate.absorb agg).arity = agg.arity ∧
      (others.foldl Aggregate.absorb agg).kind = agg.kind ∧
      (others.foldl Aggregate.absorb agg).floor = agg.floor := by
  induction others generalizing agg with
  | nil => exact ⟨rfl, rfl, rfl⟩
  | cons o os ih => exact ih (agg.absorb o)

theorem merge_static {others : List (Operand α)} (hm : agg.merge others = .ok agg') :
    agg'.arity = agg.arity ∧ agg'.kind = agg.kind ∧ agg'.floor = agg.floor := by
  obtain ⟨-, sums, -, rfl⟩ := (merge_eq_ok_iff agg agg' others).mp hm
  exact foldl_absorb_static others agg

theorem addIntegers_static {values : List Int64} (ha : agg.addIntegers values = .ok agg') :
    agg'.arity = agg.arity ∧ agg'.kind = agg.kind ∧ agg'.floor = agg.floor := by
  obtain ⟨sums, -, rfl⟩ := (addIntegers_eq_ok_iff agg agg' values).mp ha
  exact ⟨rfl, rfl, rfl⟩

theorem add_static {record : List α} (ha : agg.add record = .ok agg') :
    agg'.arity = agg.arity ∧ agg'.kind = agg.kind ∧ agg'.floor = agg.floor := by
  obtain ⟨-, ⟨-, values, -, ha'⟩ | ⟨-, rfl⟩⟩ := (add_eq_ok_iff agg agg' record).mp ha
  · exact addIntegers_static ha'
  · exact ⟨rfl, rfl, rfl⟩

end Aggregate

end PerfReport
