import PerfReport.Proofs.Aggregate.Shape

/-!
# Updates in place

An update may also be carried out on the aggregate itself, one position after
the other, where nothing takes back what was written before a failure. Every
list is then accessed by position, and an operand that is the receiver is read
as it is by then. In place, checks and sums come first and writes afterwards, so
that a call on an aggregate in shape does what the same call does on a value:

* `run_apply`, `run_add`, `run_ingest`: records;
* `run_merge`: others, column by column and figure by figure, against one
  operand after the other;
* `outcome`: all is written, or there is a refusal and nothing is.

No access is ever out of range there.
-/

namespace PerfReport

/-- Why a call in place stops. -/
inductive Halt
  | refused (e : FormatError)
  /-- A list has no item at the position asked for. -/
  | outOfRange
  deriving DecidableEq

/-- Calls on an aggregate in place. What was written before a call stops stays
written. -/
abbrev InPlace (α : Type) := EStateM Halt (Aggregate α)

/-- A column with its moments. -/
abbrev Slot (α : Type) := Column α × Moments α

namespace Aggregate

variable {α : Type}

def slots (agg : Aggregate α) : List (Slot α) := agg.columns.zip agg.moments

def putSlot (agg : Aggregate α) (i : Nat) (t : Slot α) : Aggregate α :=
  { agg with columns := agg.columns.set i t.1, moments := agg.moments.set i t.2 }

def withSlots (agg : Aggregate α) (ts : List (Slot α)) : Aggregate α :=
  { agg with columns := ts.map Prod.fst, moments := ts.map Prod.snd }

end Aggregate

namespace InPlace

section Calls

variable {α : Type}

def stop {β : Type} : Except Halt β → InPlace α β
  | .ok b => pure b
  | .error h => throw h

def check {β : Type} (r : Except FormatError β) : InPlace α β := stop (r.mapError .refused)

/-- A column with its moments, of the receiver as it is by now or of another
aggregate. -/
def read (i : Nat) (o : Operand α) : InPlace α (Slot α) := do
  match (o.resolve (← get)).slots[i]? with
  | some t => return t
  | none => throw .outOfRange

def write (i : Nat) (f : Slot α → Slot α) : InPlace α Unit := do
  let t ← read i .self
  modify fun agg => agg.putSlot i (f t)

/-- The sums with the values added to them, each of which needs its sum. -/
def stage : (index : Nat) → (sums values : List Int64) → Except Halt (List Int64)
  | _, sums, [] => .ok sums
  | _, [], _ :: _ => .error .outOfRange
  | i, s :: sums, v :: values =>
    match Int64.add? s v with
    | some t => (t :: ·) <$> stage (i + 1) sums values
    | none => .error (.refused (.overflow i v))

def stageAll : (sums : List Int64) → List (Aggregate α) → Except Halt (List Int64)
  | sums, [] => .ok sums
  | sums, o :: os => do stageAll (← stage 0 sums o.exact) os

variable [Arith α]

/-- One record more: at every position the figures in turn, then the moments. -/
def apply (record : List α) : InPlace α Unit := do
  record.zipIdx.forM fun p => do
    Statistic.all.forM fun s => write p.2 fun t => (t.1.apply s t.1 p.1, t.2)
    write p.2 fun t => (t.1, t.2.update p.1)
  modify fun agg => { agg with rows := agg.rows + 1 }

def addIntegers (values : List Int64) : InPlace α Unit := do
  let sums ← stop (stage 0 (← get).exact values)
  apply (values.map Arith.ofWhole)
  modify fun agg => { agg with exact := sums }

def add (record : List α) : InPlace α Unit := do
  let agg ← get
  if record.length ≠ agg.arity then throw (.refused (.fieldCount agg.arity record.length))
  else if agg.kind = .integer then addIntegers (← check (Aggregate.wholes 0 [] record))
  else apply record

def ingest (line : Text) : InPlace Float Unit := do
  let agg ← get
  if agg.kind = .integer then addIntegers (← check (parseIntegers line agg.arity))
  else add (← check (parseRecord line agg.arity agg.kind))

/-- One position of all operands: a pass over them for every figure, and one
for the moments. -/
def mergeSlot (others : List (Operand α)) (i : Nat) : InPlace α Unit := do
  Statistic.all.forM fun s => others.forM fun o => do
    let other ← read i o
    write i fun t => (t.1.absorb s other.1, t.2)
  others.forM fun o => do
    let other ← read i o
    write i fun t => (t.1, t.2.merge other.2)

/-- Figures, moments and rows of all operands. -/
def absorb (others : List (Operand α)) : InPlace α Unit := do
  (← get).columns.zipIdx.forM fun p => mergeSlot others p.2
  others.forM fun o => modify fun agg => { agg with rows := agg.rows + (o.resolve agg).rows }

def merge (others : List (Operand α)) : InPlace α Unit := do
  let agg ← get
  let before := others.map (Operand.resolve agg)
  check (agg.checkCompatible before)
  if agg.kind = .integer then
    let sums ← stop (stageAll agg.exact before)
    absorb others
    modify fun agg => { agg with exact := sums }
  else absorb others

end Calls

/-- How a call in place ends: written as a whole, or refused with nothing
written. -/
def outcome {α : Type} (agg : Aggregate α) : Except FormatError (Aggregate α) →
    EStateM.Result Halt (Aggregate α) Unit
  | .ok agg' => .ok () agg'
  | .error e => .error (.refused e) agg

/-! ## Running a call -/

section Run

variable {α β γ : Type} {agg agg' : Aggregate α}

theorem run_bind_ok {p : InPlace α β} {f : β → InPlace α γ} {b : β}
    (h : p.run agg = .ok b agg') : (p >>= f).run agg = (f b).run agg' := by
  simp only [EStateM.run, bind, EStateM.bind] at h ⊢
  rw [h]

theorem run_get_bind (f : Aggregate α → InPlace α γ) :
    (get >>= f).run agg = (f agg).run agg := rfl

theorem run_check (r : Except FormatError β) (f : β → InPlace α γ) (agg : Aggregate α) :
    (check r >>= f).run agg = match r with
      | .ok b => (f b).run agg
      | .error e => .error (.refused e) agg := by
  cases r <;> rfl

/-! ### One position -/

theorem getElem?_slots {i : Nat} {t : Slot α} :
    agg.slots[i]? = some t ↔ agg.columns[i]? = some t.1 ∧ agg.moments[i]? = some t.2 := by
  rw [Aggregate.slots, List.getElem?_zip_eq_some]

theorem length_slots (h : agg.Shaped) : agg.slots.length = agg.arity := by
  rw [Aggregate.slots, List.length_zip, h.columns, h.moments, Nat.min_self]

theorem zip_set {β : Type} (cs : List α) (ms : List β) (i : Nat) (t : α × β) :
    (cs.set i t.1).zip (ms.set i t.2) = (cs.zip ms).set i t := by
  induction cs generalizing ms i with
  | nil => rfl
  | cons c cs ih =>
    cases ms with
    | nil => cases i <;> rfl
    | cons m ms =>
      cases i with
      | zero => rfl
      | succ i => exact congrArg ((c, m) :: ·) (ih ms i)

theorem slots_putSlot (agg : Aggregate α) (i : Nat) (t : Slot α) :
    (agg.putSlot i t).slots = agg.slots.set i t :=
  zip_set agg.columns agg.moments i t

theorem putSlot_self {i : Nat} {t : Slot α} (h : agg.slots[i]? = some t) :
    agg.putSlot i t = agg := by
  obtain ⟨hc, hm⟩ := getElem?_slots.mp h
  obtain ⟨hi, hc⟩ := List.getElem?_eq_some_iff.mp hc
  obtain ⟨hi', hm⟩ := List.getElem?_eq_some_iff.mp hm
  rw [Aggregate.putSlot, ← hc, ← hm, List.set_getElem_self, List.set_getElem_self]

theorem putSlot_putSlot (agg : Aggregate α) (i : Nat) (t u : Slot α) :
    (agg.putSlot i t).putSlot i u = agg.putSlot i u := by
  simp only [Aggregate.putSlot, List.set_set]

theorem getElem?_slots_putSlot {i : Nat} {t u : Slot α} (h : agg.slots[i]? = some t) :
    (agg.putSlot i u).slots[i]? = some u := by
  obtain ⟨hi, -⟩ := List.getElem?_eq_some_iff.mp h
  rw [slots_putSlot, List.getElem?_set_self hi]

theorem run_read {i : Nat} {o : Operand α} {t : Slot α} (h : (o.resolve agg).slots[i]? = some t) :
    (read i o).run agg = .ok t agg := by
  rw [read, run_get_bind, h]
  rfl

theorem run_write {i : Nat} {t : Slot α} (f : Slot α → Slot α) (h : agg.slots[i]? = some t) :
    (write i f).run agg = .ok () (agg.putSlot i (f t)) := by
  have hread : (read i .self).run agg = .ok t agg := run_read h
  rw [write, run_bind_ok hread]
  rfl

/-- A loop that stays at one position. -/
theorem run_forM_slot {xs : List β} {p : β → InPlace α Unit} {g : β → Slot α → Slot α} {i : Nat}
    (hp : ∀ x ∈ xs, ∀ agg t, agg.slots[i]? = some t →
      (p x).run agg = .ok () (agg.putSlot i (g x t))) {t : Slot α} (ht : agg.slots[i]? = some t) :
    (xs.forM p).run agg = .ok () (agg.putSlot i (xs.foldl (fun t x => g x t) t)) := by
  induction xs generalizing agg t with
  | nil =>
    rw [List.foldl_nil, putSlot_self ht]
    rfl
  | cons x xs ih =>
    show (p x >>= fun _ => xs.forM p).run agg = _
    rw [run_bind_ok (hp x (List.mem_cons_self ..) agg t ht),
      ih (fun y hy => hp y (List.mem_cons_of_mem _ hy)) (getElem?_slots_putSlot ht),
      putSlot_putSlot, List.foldl_cons]

/-! ### All positions -/

theorem withSlots_slots (h : agg.Shaped) : agg.withSlots agg.slots = agg := by
  have hlen : agg.columns.length = agg.moments.length := h.columns.trans h.moments.symm
  rw [Aggregate.withSlots, Aggregate.slots, List.map_fst_zip (by omega),
    List.map_snd_zip (by omega)]

theorem slots_withSlots (agg : Aggregate α) (ts : List (Slot α)) :
    (agg.withSlots ts).slots = ts := by
  rw [Aggregate.slots, Aggregate.withSlots, ← List.unzip_fst, ← List.unzip_snd, List.zip_unzip]

theorem putSlot_withSlots (agg : Aggregate α) (ts : List (Slot α)) (i : Nat) (t : Slot α) :
    (agg.withSlots ts).putSlot i t = agg.withSlots (ts.set i t) := by
  rw [Aggregate.withSlots, Aggregate.putSlot, Aggregate.withSlots, List.map_set, List.map_set]

/-- The induction is on the positions still to be visited; those behind are
`done`. -/
theorem run_forM_from {body : β → Nat → InPlace α Unit} {f : β → Nat → Slot α → Slot α} {n : Nat}
    (hbody : ∀ x i, i < n → ∀ agg t, agg.slots[i]? = some t →
      (body x i).run agg = .ok () (agg.putSlot i (f x i t)))
    (agg : Aggregate α) (xs : List β) (done rest : List (Slot α)) (hlen : rest.length = xs.length)
    (hn : done.length + rest.length ≤ n) :
    ((xs.zipIdx done.length).forM fun p => body p.1 p.2).run (agg.withSlots (done ++ rest)) =
      .ok () (agg.withSlots
        (done ++ List.zipWith (fun p t => f p.1 p.2 t) (xs.zipIdx done.length) rest)) := by
  induction xs generalizing done rest with
  | nil =>
    rw [List.length_eq_zero_iff.mp hlen]
    rfl
  | cons x xs ih =>
    cases rest with
    | nil => cases hlen
    | cons t rest =>
      rw [List.length_cons] at hn
      have hslot : (agg.withSlots (done ++ t :: rest)).slots[done.length]? = some t := by
        rw [slots_withSlots, List.getElem?_append_right (Nat.le_refl _), Nat.sub_self]
        rfl
      have hfirst := hbody x done.length (by omega) _ t hslot
      rw [putSlot_withSlots, List.set_append_right _ _ (Nat.le_refl _), Nat.sub_self,
        List.set_cons_zero] at hfirst
      have hrest := ih (done ++ [f x done.length t]) rest (by simpa using hlen)
        (by rw [List.length_append, List.length_singleton]; omega)
      show (body x done.length >>= fun _ =>
        (xs.zipIdx (done.length + 1)).forM fun p => body p.1 p.2).run _ = _
      rw [run_bind_ok hfirst]
      simpa using hrest

/-- A loop over all positions, each of which changes on its own. -/
theorem run_forM_slots {body : β → Nat → InPlace α Unit} {f : β → Nat → Slot α → Slot α}
    (h : agg.Shaped) {xs : List β} (hlen : xs.length = agg.arity)
    (hbody : ∀ x i, i < agg.arity → ∀ agg t, agg.slots[i]? = some t →
      (body x i).run agg = .ok () (agg.putSlot i (f x i t))) :
    (xs.zipIdx.forM fun p => body p.1 p.2).run agg = .ok () (agg.withSlots
      (List.zipWith (fun p t => f p.1 p.2 t) xs.zipIdx agg.slots)) := by
  have hslots := length_slots h
  have hloop := run_forM_from hbody agg xs [] agg.slots (hslots.trans hlen.symm)
    (by rw [hslots, List.length_nil]; omega)
  rwa [List.nil_append, withSlots_slots h, List.length_nil, List.nil_append] at hloop

end Run

/-! ## Records -/

/-- Staged sums are checked sums. -/
theorem stage_eq (i : Nat) (done sums values : List Int64) (h : values.length ≤ sums.length) :
    (done.reverse ++ ·) <$> stage i sums values =
      (Aggregate.addSums i done sums values).mapError Halt.refused := by
  induction values generalizing i done sums with
  | nil => cases sums <;> rfl
  | cons v values ih =>
    cases sums with
    | nil => simp at h
    | cons s sums =>
      rw [stage, Aggregate.addSums]
      cases Int64.add? s v with
      | none => rfl
      | some t =>
        rw [← ih (i + 1) (t :: done) sums (by simpa using h)]
        cases stage (i + 1) sums values with
        | error e => rfl
        | ok r => simp [Functor.map, Except.map]

theorem stage_start {sums values : List Int64} (h : values.length ≤ sums.length) :
    stage 0 sums values = (Aggregate.addSums 0 [] sums values).mapError Halt.refused := by
  rw [← stage_eq 0 [] sums values h]
  cases stage 0 sums values <;> rfl

section Records

variable {α : Type} [Arith α] {agg : Aggregate α}

theorem run_apply (h : agg.Shaped) {record : List α} (hr : record.length = agg.arity) :
    (apply record).run agg = .ok () (agg.apply record) := by
  have hslot (x : α) (i : Nat) (agg : Aggregate α) (t : Slot α) (ht : agg.slots[i]? = some t) :
      (do Statistic.all.forM fun s => write i fun t => (t.1.apply s t.1 x, t.2)
          write i fun t => (t.1, t.2.update x)).run agg =
        .ok () (agg.putSlot i (t.1.add x, t.2.update x)) := by
    rw [run_bind_ok (run_forM_slot (fun s _ agg t ht => run_write _ ht) ht),
      run_write _ (getElem?_slots_putSlot ht), putSlot_putSlot]
    rfl
  have hloop := run_forM_slots h hr fun x i _ => hslot x i
  have hcolumns : (List.zipWith (fun p t => (t.1.add p.1, t.2.update p.1)) record.zipIdx
      agg.slots).map Prod.fst = List.zipWith Column.add agg.columns record := by
    apply List.ext_getElem
    · simp [length_slots h, h.columns, hr]
    · intro i hi hi'
      simp [Aggregate.slots]
  have hmoments : (List.zipWith (fun p t => (t.1.add p.1, t.2.update p.1)) record.zipIdx
      agg.slots).map Prod.snd = List.zipWith Moments.update agg.moments record := by
    apply List.ext_getElem
    · simp [length_slots h, h.moments, hr]
    · intro i hi hi'
      simp [Aggregate.slots]
  rw [apply, run_bind_ok hloop, Aggregate.withSlots, hcolumns, hmoments]
  rfl

theorem run_addIntegers (h : agg.Shaped) (hk : agg.kind = .integer) {values : List Int64}
    (hv : values.length = agg.arity) :
    (addIntegers values).run agg = outcome agg (agg.addIntegers values) := by
  have hexact := h.exact_integer hk
  have hlen : (values.map (Arith.ofWhole : Int64 → α)).length = agg.arity := by simpa using hv
  rw [addIntegers, run_get_bind, stage_start (by omega), ← check, run_check, Aggregate.addIntegers]
  cases Aggregate.addSums 0 [] agg.exact values with
  | error e => rfl
  | ok sums =>
    simp only
    rw [run_bind_ok (run_apply h hlen)]
    rfl

theorem run_add (h : agg.Shaped) (record : List α) :
    (add record).run agg = outcome agg (agg.add record) := by
  rw [add, run_get_bind, Aggregate.add]
  split
  · rfl
  · next hn =>
    have hn : record.length = agg.arity := Decidable.not_not.mp hn
    split
    · next hk =>
      rw [run_check]
      cases hw : Aggregate.wholes 0 [] record with
      | error e => rfl
      | ok values =>
        obtain ⟨_, hns, rfl⟩ := (Aggregate.wholes_eq_ok_iff 0 [] record values).mp hw
        have hlen : record.length = values.length := by simpa using congrArg List.length hns
        exact run_addIntegers h hk (hlen.symm.trans hn)
    · exact run_apply h hn

end Records

theorem run_ingest {agg : Aggregate Float} (h : agg.Shaped) (line : Text) :
    (ingest line).run agg = outcome agg (agg.ingest line) := by
  rw [ingest, run_get_bind, Aggregate.ingest]
  split
  · next hk =>
    rw [run_check]
    cases hv : parseIntegers line agg.arity with
    | error e => rfl
    | ok values => exact run_addIntegers h hk (length_parseIntegers hv)
  · rw [run_check]
    cases parseRecord line agg.arity agg.kind with
    | error e => rfl
    | ok record => exact run_add h record

/-! ## Merging -/

section Operands

variable {α : Type} {agg : Aggregate α}

/-- What an operand brings to a column: the column itself, as it is by then, if
it is the receiver. -/
def columnAt (i : Nat) (c : Column α) : Operand α → Column α
  | .self => c
  | .other o => o.columns.getD i c

def momentsAt (i : Nat) (m : Moments α) : Operand α → Moments α
  | .self => m
  | .other o => o.moments.getD i m

/-- One figure of what an operand brings. -/
def figureAt (f : Column α → α) (i : Nat) (x : α) : Operand α → α
  | .self => x
  | .other o => (o.columns[i]?).elim x f

def rowsAt (n : UInt64) : Operand α → UInt64
  | .self => n
  | .other o => o.rows

def mergedRows (others : List (Operand α)) (n : UInt64) : UInt64 :=
  others.foldl (fun n o => n + rowsAt n o) n

theorem figure_columnAt (f : Column α → α) (i : Nat) (c : Column α) (o : Operand α) :
    f (columnAt i c o) = figureAt f i (f c) o := by
  cases o with
  | self => rfl
  | other o =>
    rw [columnAt, figureAt, List.getD_eq_getElem?_getD]
    cases o.columns[i]? <;> rfl

theorem run_read_operand {i : Nat} {t : Slot α} {o : Operand α}
    (ho : ∀ p, o = .other p → i < p.slots.length) (ht : agg.slots[i]? = some t) :
    (read i o).run agg = .ok (columnAt i t.1 o, momentsAt i t.2 o) agg := by
  cases o with
  | self => exact run_read ht
  | other p =>
    have hp : p.slots[i]? = some _ := List.getElem?_eq_getElem (ho p rfl)
    obtain ⟨hc, hm⟩ := getElem?_slots.mp hp
    rw [columnAt, momentsAt, List.getD_eq_getElem?_getD, List.getD_eq_getElem?_getD, hc, hm]
    exact run_read hp

theorem run_forM_rows (others : List (Operand α)) (agg : Aggregate α) :
    (others.forM fun o => modify fun agg => { agg with rows := agg.rows + (o.resolve agg).rows } :
      InPlace α Unit).run agg = .ok () { agg with rows := mergedRows others agg.rows } := by
  induction others generalizing agg with
  | nil => rfl
  | cons o os ih =>
    have hrest := ih { agg with rows := agg.rows + rowsAt agg.rows o }
    cases o <;> exact hrest

theorem foldl_column {β : Type} (f : Column α → β → Column α) (xs : List β) (t : Slot α) :
    xs.foldl (fun t x => (f t.1 x, t.2)) t = (xs.foldl f t.1, t.2) := by
  induction xs generalizing t with
  | nil => rfl
  | cons x xs ih => exact ih _

theorem foldl_moments {β : Type} (f : Moments α → β → Moments α) (xs : List β) (t : Slot α) :
    xs.foldl (fun t x => (t.1, f t.2 x)) t = (t.1, xs.foldl f t.2) := by
  induction xs generalizing t with
  | nil => rfl
  | cons x xs ih => exact ih _

theorem stageAll_eq {sums : List Int64} {os : List (Aggregate α)}
    (hlen : ∀ o ∈ os, o.exact.length ≤ sums.length) :
    stageAll sums os = (Aggregate.stageSums sums os).mapError Halt.refused := by
  induction os generalizing sums with
  | nil => rfl
  | cons o os ih =>
    rw [stageAll, Aggregate.stageSums, stage_start (hlen o (List.mem_cons_self ..))]
    cases hs : Aggregate.addSums 0 [] sums o.exact with
    | error e => rfl
    | ok sums' =>
      have hsame : sums'.length = sums.length := by simpa using Aggregate.length_addSums hs
      exact ih fun p hp => hsame ▸ hlen p (List.mem_cons_of_mem _ hp)

end Operands

section Merging

variable {α : Type} [Arith α] {agg : Aggregate α} {others : List (Operand α)}

/-- A column after all operands. -/
def mergedColumn (others : List (Operand α)) (i : Nat) (c : Column α) : Column α :=
  others.foldl (fun c o => c.merge (columnAt i c o)) c

def mergedMoments (others : List (Operand α)) (i : Nat) (m : Moments α) : Moments α :=
  others.foldl (fun m o => m.merge (momentsAt i m o)) m

def mergedFigure (f : Column α → α) (join : α → α → α) (others : List (Operand α)) (i : Nat)
    (x : α) : α :=
  others.foldl (fun x o => join x (figureAt f i x o)) x

theorem mergedColumn_eq (others : List (Operand α)) (i : Nat) (c : Column α) :
    mergedColumn others i c = ⟨mergedFigure Column.sum (· + ·) others i c.sum,
      mergedFigure Column.max Arith.greater others i c.max,
      mergedFigure Column.min Arith.lesser others i c.min⟩ := by
  induction others generalizing c with
  | nil => rfl
  | cons o os ih =>
    rw [mergedColumn, List.foldl_cons, ← mergedColumn, ih]
    simp only [Column.merge, Statistic.all, List.foldl_cons, List.foldl_nil, Column.absorb,
      figure_columnAt, mergedFigure]

theorem foldl_absorb_eq (s : Statistic) (others : List (Operand α)) (i : Nat) (c : Column α) :
    others.foldl (fun c o => c.absorb s (columnAt i c o)) c =
      match s with
      | .sum => { c with sum := mergedFigure Column.sum (· + ·) others i c.sum }
      | .max => { c with max := mergedFigure Column.max Arith.greater others i c.max }
      | .min => { c with min := mergedFigure Column.min Arith.lesser others i c.min } := by
  induction others generalizing c with
  | nil => cases s <;> rfl
  | cons o os ih =>
    rw [List.foldl_cons, ih]
    cases s <;> simp only [Column.absorb, figure_columnAt, mergedFigure, List.foldl_cons]

/-- The figures of a column know nothing of each other: three passes over the
operands do what one does. -/
theorem foldl_statistics (others : List (Operand α)) (i : Nat) (c : Column α) :
    Statistic.all.foldl (fun c s => others.foldl (fun c o => c.absorb s (columnAt i c o)) c) c =
      mergedColumn others i c := by
  simp only [Statistic.all, List.foldl_cons, List.foldl_nil, foldl_absorb_eq, mergedColumn_eq]

theorem run_mergeSlot {i : Nat} (ho : ∀ p, .other p ∈ others → i < p.slots.length)
    (agg : Aggregate α) {t : Slot α} (ht : agg.slots[i]? = some t) :
    (mergeSlot others i).run agg =
      .ok () (agg.putSlot i (mergedColumn others i t.1, mergedMoments others i t.2)) := by
  have hread {o : Operand α} (hmem : o ∈ others) (p : Aggregate α) (hp : o = .other p) :
      i < p.slots.length := ho p (hp ▸ hmem)
  have hfigure (s : Statistic) (agg : Aggregate α) (t : Slot α) (ht : agg.slots[i]? = some t) :
      (others.forM fun o => do
        let other ← read i o
        write i fun t => (t.1.absorb s other.1, t.2)).run agg =
      .ok () (agg.putSlot i (others.foldl (fun c o => c.absorb s (columnAt i c o)) t.1, t.2)) := by
    rw [← foldl_column]
    refine run_forM_slot ?_ ht
    intro o hmem agg t ht
    rw [run_bind_ok (run_read_operand (hread hmem) ht), run_write _ ht]
  have hmoments (agg : Aggregate α) (t : Slot α) (ht : agg.slots[i]? = some t) :
      (others.forM fun o => do
        let other ← read i o
        write i fun t => (t.1, t.2.merge other.2)).run agg =
      .ok () (agg.putSlot i (t.1, mergedMoments others i t.2)) := by
    rw [mergedMoments, ← foldl_moments]
    refine run_forM_slot ?_ ht
    intro o hmem agg t ht
    rw [run_bind_ok (run_read_operand (hread hmem) ht), run_write _ ht]
  have hfigures := run_forM_slot (fun s (_ : s ∈ Statistic.all) => hfigure s) ht
  rw [foldl_column fun c s => others.foldl (fun c o => c.absorb s (columnAt i c o)) c,
    foldl_statistics] at hfigures
  rw [mergeSlot, run_bind_ok hfigures, hmoments _ _ (getElem?_slots_putSlot ht), putSlot_putSlot]

/-! ### One operand after the other -/

theorem slots_absorb (h : agg.Shaped) {o : Operand α} (hc : agg.Compatible (o.resolve agg))
    (ho : (o.resolve agg).Shaped) : (agg.absorb o).slots = agg.slots.mapIdx fun i t =>
      (t.1.merge (columnAt i t.1 o), t.2.merge (momentsAt i t.2 o)) := by
  apply List.ext_getElem
  · rw [length_slots (h.absorb hc ho), List.length_mapIdx, length_slots h]
    rfl
  · intro i hi hi'
    cases o with
    | self => simp [Aggregate.slots, Aggregate.absorb, Operand.resolve, columnAt, momentsAt]
    | other p =>
      have hlt : i < p.arity := by
        rw [length_slots (h.absorb hc ho)] at hi
        exact Nat.lt_of_lt_of_eq hi hc.1.symm
      have hcolumn : i < p.columns.length := ho.columns ▸ hlt
      have hmoment : i < p.moments.length := ho.moments ▸ hlt
      simp [Aggregate.slots, Aggregate.absorb, Operand.resolve, columnAt, momentsAt, hcolumn,
        hmoment]

/-- The positions know nothing of each other either. The induction is on the
operands still to be absorbed. -/
theorem foldl_absorb_slots (h : agg.Shaped) (hc : ∀ o ∈ others, agg.Compatible (o.resolve agg))
    (ho : ∀ p, .other p ∈ others → p.Shaped) :
    others.foldl Aggregate.absorb agg =
      Aggregate.withSlots { agg with rows := mergedRows others agg.rows }
        (agg.slots.mapIdx fun i t => (mergedColumn others i t.1, mergedMoments others i t.2)) := by
  induction others generalizing agg with
  | nil =>
    have hsame : agg.slots.mapIdx (fun _ t => t) = agg.slots := by
      apply List.ext_getElem <;> simp
    show agg = agg.withSlots (agg.slots.mapIdx fun _ t => t)
    rw [hsame, withSlots_slots h]
  | cons o os ih =>
    have hfirst := hc o (List.mem_cons_self ..)
    have hshaped : (o.resolve agg).Shaped := by
      cases o with
      | self => exact h
      | other p => exact ho p (List.mem_cons_self ..)
    have hrest : ∀ p ∈ os, (agg.absorb o).Compatible (p.resolve (agg.absorb o)) := by
      intro p hp
      cases p with
      | self => exact ⟨rfl, rfl⟩
      | other p => exact hc (.other p) (List.mem_cons_of_mem _ hp)
    rw [List.foldl_cons,
      ih (h.absorb hfirst hshaped) hrest fun p hp => ho p (List.mem_cons_of_mem _ hp),
      slots_absorb h hfirst hshaped, List.mapIdx_mapIdx]
    cases o <;> rfl

/-- Column by column is operand by operand. -/
theorem run_absorb (h : agg.Shaped) (hc : ∀ o ∈ others, agg.Compatible (o.resolve agg))
    (ho : ∀ p, .other p ∈ others → p.Shaped) :
    (absorb others).run agg = .ok () (others.foldl Aggregate.absorb agg) := by
  have hother (i : Nat) (hi : i < agg.arity) (p : Aggregate α) (hp : .other p ∈ others) :
      i < p.slots.length := by
    have harity : p.arity = agg.arity := (hc _ hp).1
    rw [length_slots (ho p hp), harity]
    exact hi
  have hloop := run_forM_slots h h.columns fun _ i hi agg _ => run_mergeSlot (hother i hi) agg
  have hzip : List.zipWith (fun p t => (mergedColumn others p.2 t.1, mergedMoments others p.2 t.2))
      agg.columns.zipIdx agg.slots =
      agg.slots.mapIdx fun i t => (mergedColumn others i t.1, mergedMoments others i t.2) := by
    apply List.ext_getElem <;> simp [length_slots h, h.columns]
  rw [hzip] at hloop
  rw [absorb, run_get_bind, run_bind_ok hloop, run_forM_rows, foldl_absorb_slots h hc ho]
  rfl

theorem run_merge (h : agg.Shaped) (ho : ∀ p, .other p ∈ others → p.Shaped) :
    (merge others).run agg = outcome agg (agg.merge others) := by
  rw [merge, run_get_bind, run_check, Aggregate.merge]
  cases hcheck : agg.checkCompatible (others.map (Operand.resolve agg)) with
  | error e => rfl
  | ok u =>
    have hc : ∀ o ∈ others, agg.Compatible (o.resolve agg) := by
      simpa using (Aggregate.checkCompatible_eq_ok_iff agg _).mp hcheck
    have habsorb := run_absorb h hc ho
    simp only [Aggregate.mergedSums]
    split
    · next hk =>
      have hlen : ∀ o ∈ others.map (Operand.resolve agg), o.exact.length ≤ agg.exact.length := by
        intro p hp
        obtain ⟨o, hmem, rfl⟩ := List.mem_map.mp hp
        cases o with
        | self => exact Nat.le_refl _
        | other p =>
          obtain ⟨harity, hkind⟩ : p.arity = agg.arity ∧ p.kind = agg.kind := hc _ hmem
          have hexact := (ho p hmem).exact_integer (hkind.trans hk)
          exact Nat.le_of_eq (hexact.trans (harity.trans (h.exact_integer hk).symm))
      rw [stageAll_eq hlen, ← check, run_check]
      cases Aggregate.stageSums agg.exact (others.map (Operand.resolve agg)) with
      | error e => rfl
      | ok sums =>
        simp only
        rw [run_bind_ok habsorb]
        rfl
    · rw [habsorb, foldl_absorb_slots h hc ho]
      rfl

end Merging

end InPlace

end PerfReport
