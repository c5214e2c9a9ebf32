import PerfReport.Proofs.Aggregate.InPlace
import PerfReport.Proofs.Snapshot.RoundTrip

/-!
# Figures by position

What an aggregate is asked for may also be collected in place: a table with a
place for every column is filled position by position, and whatever belongs to a
column is accessed by the position of that column. For an aggregate in shape
there is always an item at the position asked for, so that the answer is the one
given on a value.

* `run_totals`, `run_mean`, `run_deviation`, `run_range`: figures;
* `run_readFrom`: a log, line by line, up to the line that is refused;
* `run_reload`: the columns as they are written, and put back into a fresh
  aggregate.
-/

namespace PerfReport.InPlace

/-! ## Calls -/

section Calls

variable {α β ι : Type}

/-- The item at a position. -/
def item (xs : List β) (i : Nat) : InPlace α β :=
  match xs[i]? with
  | some x => return x
  | none => throw .outOfRange

/-- Puts an answer into a table, at a place that it has to have. -/
def place (f : ι → β) (table : List β) (p : ι × Nat) : InPlace α (List β) :=
  if p.2 < table.length then return table.set p.2 (f p.1) else throw .outOfRange

/-- A table of `size` places, filled from items one after the other. -/
def tabulate (size : Nat) (filler : β) (f : ι → β) (items : List ι) : InPlace α (List β) :=
  items.zipIdx.foldlM (place f) (List.replicate size filler)

def totals : InPlace Float (List Float) := do
  let agg ← get
  tabulate agg.arity 0.0 Column.sum agg.columns

def mean : InPlace Float (Except Error (List Float)) := do
  let agg ← get
  if agg.rows = 0 then return .error (.division .mean)
  else return .ok (← tabulate agg.arity 0.0 (fun c => quotient c.sum agg.rows agg.floor) agg.columns)

def deviation : InPlace Float (Except Error (List Float)) := do
  let agg ← get
  if agg.rows = 0 then return .error (.division .deviation)
  else return .ok (← tabulate agg.arity 0.0 Moments.deviation agg.moments)

def range : InPlace Float (Option (List Float × List Float)) := do
  let agg ← get
  if agg.rows = 0 then return none
  else
    let least ← tabulate agg.arity 0.0 Column.min agg.columns
    let greatest ← tabulate agg.arity 0.0 Column.max agg.columns
    return some (least, greatest)

/-- How a call was refused, if it was. -/
def attempt (p : InPlace α Unit) : InPlace α (Option FormatError) := fun agg =>
  match p agg with
  | .ok () agg => .ok none agg
  | .error (.refused e) agg => .ok (some e) agg
  | .error .outOfRange agg => .error .outOfRange agg

/-- How many records were added, and why the reading ended early. -/
def readLines (limit : Int) (overlong : Bool) :
    (read added : Nat) → List Text → InPlace Float (Nat × Option Error)
  | read, added, [] => return (added, if overlong then some (.lineTooLong (read + 1)) else none)
  | read, added, line :: rest => do
    if line.isBlankText then readLines limit overlong (read + 1) added rest
    else
      match ← attempt (ingest line) with
      | some e => return (added, some (.format { e with line := read + 1 }))
      | none =>
        if 0 < limit ∧ limit ≤ (added + 1 : Nat) then return (added + 1, none)
        else readLines limit overlong (read + 1) (added + 1) rest

def readFrom (text : Text) (limit : Int) : InPlace Float (Nat × Option Error) :=
  readLines limit text.lines.overlong 0 0 text.lines.complete

/-- A column with its moments and, for whole numbers, its exact sum. -/
def columnState (agg : Aggregate Float) (p : Column Float × Nat) : InPlace Float ColumnState := do
  let m ← item agg.moments p.2
  let exact ← if agg.kind = .integer then item agg.exact p.2 else pure 0
  return ⟨p.1, m, exact⟩

def columnStates : InPlace Float (List ColumnState) := do
  let agg ← get
  agg.columns.zipIdx.mapM (columnState agg)

/-- A fresh aggregate under a heading that was read. -/
def blank (size : Nat) (kind : NumericKind) (floor : Bool) (rows : UInt64) : Aggregate Float :=
  { Aggregate.fresh size kind with floor := floor, rows := rows }

/-- Puts columns into a fresh aggregate. -/
def restore (kind : NumericKind) (floor : Bool) (rows : UInt64) (states : List ColumnState) :
    InPlace Float Unit := do
  set (blank states.length kind floor rows)
  states.zipIdx.forM fun p => write p.2 fun _ => (p.1.column, p.1.moments)
  if kind = .integer then modify fun agg => { agg with exact := states.map ColumnState.exact }

/-- What is written of an aggregate, and the aggregate that is read from it. -/
def reload : InPlace Float Unit := do
  let agg ← get
  restore agg.kind agg.floor agg.rows (← columnStates)

end Calls

/-! ## Tables -/

section Tables

variable {α β ι : Type} {agg : Aggregate α}

theorem run_item {xs : List β} {i : Nat} {x : β} (h : xs[i]? = some x) :
    (item xs i).run agg = .ok x agg := by
  rw [item, h]
  rfl

/-- The induction is on the items still to come; the places behind are `done`. -/
theorem run_place_from (f : ι → β) (items : List ι) (done rest : List β)
    (hlen : items.length = rest.length) :
    ((items.zipIdx done.length).foldlM (place f) (done ++ rest)).run agg =
      .ok (done ++ items.map f) agg := by
  induction items generalizing done rest with
  | nil =>
    rw [List.length_eq_zero_iff.mp hlen.symm]
    rfl
  | cons x items ih =>
    cases rest with
    | nil => cases hlen
    | cons b rest =>
      have hplace : (place f (done ++ b :: rest) (x, done.length)).run agg =
          .ok (done ++ f x :: rest) agg := by
        rw [place, if_pos (by simp), List.set_append_right _ _ (Nat.le_refl _), Nat.sub_self]
        rfl
      have hrest := ih (done ++ [f x]) rest (by simpa using hlen)
      rw [List.zipIdx_cons, List.foldlM_cons, run_bind_ok hplace]
      simpa using hrest

theorem run_tabulate {size : Nat} (filler : β) (f : ι → β) {items : List ι}
    (h : items.length = size) :
    (tabulate size filler f items).run agg = .ok (items.map f) agg :=
  run_place_from f items [] (List.replicate size filler) (by simpa using h)

end Tables

section Figures

variable {agg : Aggregate Float}

theorem run_totals (h : agg.Shaped) : totals.run agg = .ok agg.totals agg := by
  rw [totals, run_get_bind, run_tabulate _ _ h.columns]
  rfl

theorem run_mean (h : agg.Shaped) : mean.run agg = .ok agg.mean agg := by
  rw [mean, run_get_bind, Aggregate.mean]
  split
  · rfl
  · rw [run_bind_ok (run_tabulate _ _ h.columns)]
    rfl

theorem run_deviation (h : agg.Shaped) : deviation.run agg = .ok agg.deviation agg := by
  rw [deviation, run_get_bind, Aggregate.deviation]
  split
  · rfl
  · rw [run_bind_ok (run_tabulate _ _ h.moments)]
    rfl

theorem run_range (h : agg.Shaped) : range.run agg = .ok agg.range? agg := by
  rw [range, run_get_bind, Aggregate.range?]
  split
  · rfl
  · rw [run_bind_ok (run_tabulate _ _ h.columns), run_bind_ok (run_tabulate _ _ h.columns)]
    rfl

/-! ## Logs -/

theorem run_attempt (h : agg.Shaped) (line : Text) :
    (attempt (ingest line)).run agg = match agg.ingest line with
      | .ok agg' => .ok none agg'
      | .error e => .ok (some e) agg := by
  have hrun : ingest line agg = outcome agg (agg.ingest line) := run_ingest h line
  rw [EStateM.run, attempt, hrun]
  cases agg.ingest line <;> rfl

/-- Every line meets an aggregate in shape, since accepted lines keep it so. -/
theorem run_readLines (limit : Int) (overlong : Bool) (lines : List Text) (h : agg.Shaped)
    (read added : Nat) :
    let r := Aggregate.readLines limit overlong agg read added lines
    (readLines limit overlong read added lines).run agg = .ok (r.added, r.error) r.aggregate := by
  induction lines generalizing agg read added with
  | nil => rfl
  | cons line rest ih =>
    have hattempt := run_attempt h line
    rw [readLines, Aggregate.readLines]
    split
    · exact ih h (read + 1) added
    · cases hi : agg.ingest line with
      | error e =>
        rw [hi] at hattempt
        rw [run_bind_ok hattempt]
        rfl
      | ok agg' =>
        rw [hi] at hattempt
        rw [run_bind_ok hattempt]
        dsimp only
        split
        · rfl
        · exact ih (h.ingest hi) (read + 1) (added + 1)

theorem run_readFrom (h : agg.Shaped) (text : Text) (limit : Int) :
    (readFrom text limit).run agg = .ok
      ((agg.readFrom text limit).added, (agg.readFrom text limit).error)
      (agg.readFrom text limit).aggregate :=
  run_readLines limit text.lines.overlong text.lines.complete h 0 0

/-! ## Columns written and put back -/

theorem run_mapM {β γ : Type} {f : β → InPlace Float γ} {xs : List β} {ys : List γ}
    (h : List.Forall₂ (fun x y => (f x).run agg = .ok y agg) xs ys) :
    (xs.mapM f).run agg = .ok ys agg := by
  induction h with
  | nil => rfl
  | cons hx _ ih =>
    rw [List.mapM_cons, run_bind_ok hx, run_bind_ok ih]
    rfl

theorem run_columnState {i : Nat} {c : Column Float} (hc : agg.columns[i]? = some c)
    {t : ColumnState} (ht : agg.columnStates[i]? = some t) :
    (columnState agg (c, i)).run agg = .ok t agg := by
  obtain ⟨⟨c', m⟩, exact, hslot, hexact, rfl⟩ := List.getElem?_zipWith_eq_some.mp ht
  obtain ⟨hc', hm⟩ : agg.columns[i]? = some c' ∧ agg.moments[i]? = some m :=
    List.getElem?_zip_eq_some.mp hslot
  obtain rfl : c = c' := Option.some.inj (hc.symm.trans hc')
  rw [columnState, run_bind_ok (run_item hm)]
  by_cases hk : agg.kind = .integer
  · rw [if_pos hk] at hexact ⊢
    rw [run_bind_ok (run_item hexact)]
    rfl
  · rw [if_neg hk] at hexact ⊢
    obtain ⟨-, rfl⟩ : i < agg.arity ∧ 0 = exact := by simpa [List.getElem?_replicate] using hexact
    rfl

theorem run_columnStates (h : agg.Shaped) :
    columnStates.run agg = .ok agg.columnStates agg := by
  rw [columnStates, run_get_bind]
  apply run_mapM
  rw [List.forall₂_iff_get]
  refine ⟨by simp [h.length_columnStates, h.columns], ?_⟩
  intro i hi hi'
  have hlt : i < agg.columns.length := by simpa using hi
  have hrun := run_columnState (List.getElem?_eq_getElem hlt) (List.getElem?_eq_getElem hi')
  simpa using hrun

theorem shaped_blank (size : Nat) (kind : NumericKind) (floor : Bool) (rows : UInt64) :
    (blank size kind floor rows).Shaped :=
  have h := Aggregate.shaped_fresh (α := Float) size kind
  ⟨h.columns, h.moments, h.exact⟩

/-- Every place of the fresh aggregate is written. -/
theorem run_restore (kind : NumericKind) (floor : Bool) (rows : UInt64)
    (states : List ColumnState) (agg : Aggregate Float) :
    (restore kind floor rows states).run agg =
      .ok () (Aggregate.restore kind floor rows states) := by
  have hblank := shaped_blank states.length kind floor rows
  have hlen : states.length = (blank states.length kind floor rows).arity := rfl
  have hbody (x : ColumnState) (i : Nat) (_ : i < (blank states.length kind floor rows).arity)
      (agg : Aggregate Float) (t : Slot Float) (ht : agg.slots[i]? = some t) :
      (write i fun _ => (x.column, x.moments)).run agg =
        .ok () (agg.putSlot i (x.column, x.moments)) :=
    run_write (fun _ => (x.column, x.moments)) ht
  have hloop := run_forM_slots hblank hlen hbody
  have hslots : List.zipWith (fun p _ => (p.1.column, p.1.moments)) states.zipIdx
      (blank states.length kind floor rows).slots = states.map fun x => (x.column, x.moments) := by
    have hslots : (blank states.length kind floor rows).slots.length = states.length :=
      length_slots hblank
    apply List.ext_getElem <;> simp [hslots]
  rw [hslots] at hloop
  show (states.zipIdx.forM (fun p => write p.2 fun _ => (p.1.column, p.1.moments)) >>= _).run
    (blank states.length kind floor rows) = _
  rw [run_bind_ok hloop]
  by_cases hk : kind = .integer
  · rw [if_pos hk, Aggregate.restore, if_pos hk, Aggregate.withSlots, List.map_map, List.map_map]
    rfl
  · rw [if_neg hk, Aggregate.restore, if_neg hk, Aggregate.withSlots, List.map_map, List.map_map,
      blank, Aggregate.fresh, if_neg hk]
    rfl

theorem run_reload (h : agg.Shaped) : reload.run agg = .ok () agg := by
  rw [reload, run_get_bind, run_bind_ok (run_columnStates h), run_restore, h.restore_columnStates]

end Figures

end PerfReport.InPlace
