import PerfReport.Proofs.Number.Rational
import PerfReport.Proofs.Snapshot.Reader

/-!
# The written form of a snapshot

An `Image` is a snapshot as it stands in the archive: the version, two words,
two texts, the counted sources, the shape of the aggregate and the words of
its columns, which have an exact sum from version 2 on. `Image.bytes` is the
concatenation of these parts and `Image.snapshot` what the reader makes of them.

* `Image.Describes`, `Image.describes_iff`: every field of a snapshot and the
  words that it is read from;
* `parses_getSnapshot`: the reader takes exactly the well-formed images;
* `decode_eq_ok_iff`: so decoding succeeds exactly on them, with nothing
  missing and nothing left, and gives the fields that are written there.
-/

namespace PerfReport.Snapshot

variable {α : Type} [Carrier α]

/-- The words of one column. -/
structure ColumnImage where
  sum : UInt64
  max : UInt64
  min : UInt64
  count : UInt64
  mean : UInt64
  m2 : UInt64
  /-- From version 2 on. -/
  exact : Option UInt64
  deriving DecidableEq

namespace ColumnImage

def exactBytes : Option UInt64 → Text
  | some w => putU64 w
  | none => []

def bytes (c : ColumnImage) : Text :=
  putU64 c.sum ++ putU64 c.max ++ putU64 c.min ++ putU64 c.count ++ putU64 c.mean
    ++ putU64 c.m2 ++ exactBytes c.exact

/-- Without an exact sum, the truncated sum counts as one. -/
def exactSum (sum : α) : Option UInt64 → Int64
  | some w => w.toInt64
  | none => Double.truncate (Carrier.toBits sum)

def state (c : ColumnImage) : ColumnState α where
  column := ⟨Carrier.ofBits c.sum, Carrier.ofBits c.max, Carrier.ofBits c.min⟩
  moments := ⟨c.count, Carrier.ofBits c.mean, Carrier.ofBits c.m2⟩
  exact := exactSum (Carrier.ofBits c.sum : α) c.exact

/-- Only the old version has no exact sum. -/
def Fits (v : UInt8) (c : ColumnImage) : Prop := c.exact = none ↔ v = oldVersion

theorem length_bytes (v : UInt8) (c : ColumnImage) (h : c.Fits v) :
    c.bytes.length = columnSize v := by
  unfold Fits at h
  cases he : c.exact with
  | none => simp [bytes, exactBytes, columnSize, he, h.mp he]
  | some w =>
    have hv : v ≠ oldVersion := fun hv => by simp [h.mpr hv] at he
    simp [bytes, exactBytes, columnSize, he, hv]

end ColumnImage

/-- An aggregate as it is written. -/
structure AggregateImage where
  kind : UInt8
  floor : UInt8
  rows : UInt64
  columns : List ColumnImage
  deriving DecidableEq

namespace AggregateImage

def bytes (a : AggregateImage) : Text :=
  putU32 a.columns.length ++ [a.kind] ++ [a.floor] ++ putU64 a.rows
    ++ a.columns.flatMap ColumnImage.bytes

/-- Means are rounded down only if the byte for it is one. -/
def value (a : AggregateImage) : Aggregate α :=
  .restore ⟨a.kind.toNat⟩ (a.floor == 1) a.rows (a.columns.map ColumnImage.state)

/-- An arity that fits four bytes, and columns of the version's size. -/
def Fits (v : UInt8) (a : AggregateImage) : Prop :=
  a.columns.length < UInt32.size ∧ ∀ c ∈ a.columns, c.Fits v

end AggregateImage

namespace Heading

/-- A known version, and lengths that fit four bytes. -/
structure Fits (h : Heading) : Prop where
  version : h.version = Snapshot.version ∨ h.version = oldVersion
  layout : h.layout.length < UInt32.size
  title : h.title.length < UInt32.size
  sourceCount : h.sources.length < UInt32.size
  sources : ∀ t ∈ h.sources, t.length < UInt32.size

def bytes (h : Heading) : Text :=
  [h.version] ++ putU64 h.id ++ putU64 h.created ++ putText h.layout ++ putText h.title
    ++ putU32 h.sources.length ++ h.sources.flatMap putText

end Heading

/-- A snapshot as it is written. -/
structure Image where
  version : UInt8
  id : UInt64
  created : UInt64
  layout : Text
  title : Text
  sources : List Text
  aggregate : AggregateImage
  deriving DecidableEq

namespace Image

/-- A known version, lengths that fit four bytes, and an aggregate of that
version. -/
structure WellFormed (i : Image) : Prop where
  version : i.version = Snapshot.version ∨ i.version = oldVersion
  layout : i.layout.length < UInt32.size
  title : i.title.length < UInt32.size
  sourceCount : i.sources.length < UInt32.size
  sources : ∀ t ∈ i.sources, t.length < UInt32.size
  aggregate : i.aggregate.Fits i.version

def bytes (i : Image) : Text :=
  [i.version] ++ putU64 i.id ++ putU64 i.created ++ putText i.layout ++ putText i.title
    ++ putU32 i.sources.length ++ i.sources.flatMap putText ++ i.aggregate.bytes

def heading (i : Image) : Heading :=
  ⟨i.version, i.id, i.created, i.layout, i.title, i.sources⟩

theorem WellFormed.heading {i : Image} (h : i.WellFormed) : i.heading.Fits :=
  ⟨h.version, h.layout, h.title, h.sourceCount, h.sources⟩

def snapshot (i : Image) : Snapshot α where
  id := i.id
  created := i.created.toInt64
  layout := i.layout
  title := i.title
  sources := i.sources
  aggregate := i.aggregate.value

end Image

/-! ## Fields and words -/

namespace ColumnImage

structure IsColumn (c : ColumnImage) (column : Column α) : Prop where
  sum : column.sum = Carrier.ofBits c.sum
  max : column.max = Carrier.ofBits c.max
  min : column.min = Carrier.ofBits c.min

structure IsMoments (c : ColumnImage) (moments : Moments α) : Prop where
  count : moments.count = c.count
  mean : moments.mean = Carrier.ofBits c.mean
  m2 : moments.m2 = Carrier.ofBits c.m2

/-- The exact sum is its word as a signed number. In the old version, which has
no such word, it is the sum cut toward zero. -/
structure IsExact (α : Type) [Carrier α] (c : ColumnImage) (n : Int64) : Prop where
  written : ∀ w, c.exact = some w → n = w.toInt64
  truncated : c.exact = none → Double.Truncates (Carrier.toBits (Carrier.ofBits c.sum : α)) n

theorem isColumn_iff (c : ColumnImage) (column : Column α) :
    c.IsColumn column ↔ (c.state : ColumnState α).column = column := by
  constructor
  · rintro ⟨hsum, hmax, hmin⟩
    rw [state, ← hsum, ← hmax, ← hmin]
  · rintro rfl
    exact ⟨rfl, rfl, rfl⟩

theorem isMoments_iff (c : ColumnImage) (moments : Moments α) :
    c.IsMoments moments ↔ (c.state : ColumnState α).moments = moments := by
  constructor
  · rintro ⟨hcount, hmean, hm2⟩
    rw [state, ← hcount, ← hmean, ← hm2]
  · rintro rfl
    exact ⟨rfl, rfl, rfl⟩

theorem isExact_iff (c : ColumnImage) (n : Int64) :
    c.IsExact α n ↔ (c.state : ColumnState α).exact = n := by
  cases hc : c.exact with
  | some w =>
    simp only [state, exactSum, hc]
    constructor
    · intro h
      exact (h.written w hc).symm
    · rintro rfl
      refine ⟨?_, ?_⟩ <;> simp [hc]
  | none =>
    simp only [state, exactSum, hc, ← Double.truncates_iff]
    constructor
    · intro h
      exact h.truncated hc
    · intro h
      refine ⟨?_, fun _ => h⟩
      simp [hc]

end ColumnImage

/-- The code of whole numbers. -/
def wholeKind : UInt8 := 1

theorem kind_integer_iff (kind : UInt8) :
    (⟨kind.toNat⟩ : NumericKind) = .integer ↔ kind = wholeKind := by
  rw [NumericKind.integer, NumericKind.mk.injEq, ← UInt8.toNat_inj]
  exact Nat.cast_inj (R := ℤ) (n := 1)

/-- Every field of the snapshot is the part of the image that it is read from:
columns and moments one by one, in order, and exact sums for whole numbers
only. -/
structure Image.Describes (i : Image) (s : Snapshot α) : Prop where
  id : s.id = i.id
  created : s.created = i.created.toInt64
  layout : s.layout = i.layout
  title : s.title = i.title
  sources : s.sources = i.sources
  arity : s.aggregate.arity = i.aggregate.columns.length
  kind : s.aggregate.kind.code = i.aggregate.kind.toNat
  floor : s.aggregate.floor = true ↔ i.aggregate.floor = 1
  rows : s.aggregate.rows = i.aggregate.rows
  columns : i.aggregate.columns.Forall₂ ColumnImage.IsColumn s.aggregate.columns
  moments : i.aggregate.columns.Forall₂ ColumnImage.IsMoments s.aggregate.moments
  wholes : i.aggregate.kind = wholeKind →
    i.aggregate.columns.Forall₂ (ColumnImage.IsExact α) s.aggregate.exact
  others : i.aggregate.kind ≠ wholeKind → s.aggregate.exact = []

theorem forall₂_iff_map_eq {β γ : Type} {R : β → γ → Prop} {f : β → γ}
    (h : ∀ b c, R b c ↔ f b = c) (bs : List β) (cs : List γ) :
    bs.Forall₂ R cs ↔ bs.map f = cs := by
  obtain rfl : R = fun b c => f b = c := funext fun b => funext fun c => propext (h b c)
  rw [← List.forall₂_eq_eq_eq, List.forall₂_map_left_iff]

/-- **Fields.**  What the reader makes of an image is the one snapshot that it
describes. -/
theorem Image.describes_iff (i : Image) (s : Snapshot α) : i.Describes s ↔ i.snapshot = s := by
  have hcolumns := forall₂_iff_map_eq (ColumnImage.isColumn_iff (α := α)) i.aggregate.columns
  have hmoments := forall₂_iff_map_eq (ColumnImage.isMoments_iff (α := α)) i.aggregate.columns
  have hexact := forall₂_iff_map_eq (ColumnImage.isExact_iff (α := α)) i.aggregate.columns
  have hstates {β : Type} (f : ColumnState α → β) :
      i.aggregate.columns.map (fun c => f c.state) =
        (i.aggregate.columns.map ColumnImage.state).map f := by
    rw [List.map_map]
    rfl
  constructor
  · intro h
    have hkind : (⟨i.aggregate.kind.toNat⟩ : NumericKind) = s.aggregate.kind :=
      congrArg NumericKind.mk h.kind.symm
    have hfloor : (i.aggregate.floor == 1) = s.aggregate.floor := by
      rw [Bool.eq_iff_iff, h.floor, beq_iff_eq]
    have hsums : (if s.aggregate.kind = .integer then
        (i.aggregate.columns.map ColumnImage.state).map (ColumnState.exact (α := α)) else []) =
          s.aggregate.exact := by
      rw [← hkind, ← hstates]
      split
      · next hk => exact (hexact _).mp (h.wholes ((kind_integer_iff _).mp hk))
      · next hk => exact (h.others (mt (kind_integer_iff _).mpr hk)).symm
    have haggregate : i.aggregate.value = s.aggregate := by
      rw [AggregateImage.value, Aggregate.restore, List.length_map, ← h.arity, hkind, hfloor,
        ← h.rows, hsums, ← hstates, (hcolumns _).mp h.columns, ← hstates,
        (hmoments _).mp h.moments]
    rw [Image.snapshot, ← h.id, ← h.created, ← h.layout, ← h.title, ← h.sources, haggregate]
  · rintro rfl
    refine ⟨rfl, rfl, rfl, rfl, rfl, ?_, rfl, ?_, rfl, ?_, ?_, ?_, ?_⟩
    · exact List.length_map ..
    · exact beq_iff_eq
    · exact (hcolumns _).mpr (hstates _)
    · exact (hmoments _).mpr (hstates _)
    · intro hk
      refine (hexact _).mpr ((hstates _).trans ?_)
      exact (if_pos ((kind_integer_iff _).mpr hk)).symm
    · intro hk
      exact if_neg (mt (kind_integer_iff _).mp hk)

/-! ## Reading images -/

theorem parses_getVersion :
    Parses getVersion
      (Spells (fun v => v = version ∨ v = oldVersion) (fun v => [v]) fun v => v) := by
  have hrest (v : UInt8) : Parses (if v = version ∨ v = oldVersion then pure v
      else throw (.version v) : Decoder UInt8)
      fun w t => (v = version ∨ v = oldVersion) ∧ w = v ∧ t = [] := by
    by_cases hv : v = version ∨ v = oldVersion
    · rw [if_pos hv]
      simpa only [hv, true_and] using parses_pure v
    · rw [if_neg hv]
      simpa only [hv, false_and] using parses_throw (.version v)
  apply (parses_getByte.bind fun v _ => hrest v).congr
  intro v t
  constructor
  · rintro ⟨_, -, _, ⟨hv, rfl, rfl⟩, rfl⟩
    exact ⟨v, hv, rfl, rfl⟩
  · rintro ⟨_, hv, rfl, rfl⟩
    exact ⟨v, trivial, [], ⟨hv, rfl, rfl⟩, rfl⟩

theorem parses_getExact (v : UInt8) (sum : α) :
    Parses (getExact v sum) (Spells (fun w => w = none ↔ v = oldVersion) ColumnImage.exactBytes
      (ColumnImage.exactSum sum)) := by
  unfold getExact
  by_cases hv : v = oldVersion
  · rw [if_pos hv]
    apply (parses_pure (Double.truncate (Carrier.toBits sum))).congr
    intro e t
    constructor
    · rintro ⟨rfl, rfl⟩
      exact ⟨none, by simp [hv], rfl, rfl⟩
    · rintro ⟨w, hw, rfl, rfl⟩
      rw [hw.mpr hv]
      exact ⟨rfl, rfl⟩
  · rw [if_neg hv]
    apply (parses_getU64.map UInt64.toInt64).congr
    intro e t
    constructor
    · rintro ⟨w, -, rfl, rfl⟩
      exact ⟨some w, by simp [hv], rfl, rfl⟩
    · rintro ⟨w, hw, rfl, rfl⟩
      cases w with
      | none => exact absurd (hw.mp rfl) hv
      | some w => exact ⟨w, trivial, rfl, rfl⟩

theorem parses_getColumn (v : UInt8) :
    Parses (getColumn v : Decoder (ColumnState α))
      (Spells (ColumnImage.Fits v) ColumnImage.bytes ColumnImage.state) := by
  have hfloat := @parses_getFloat α _
  apply (hfloat.bind fun sum _ => hfloat.bind fun max _ => hfloat.bind fun min _ =>
    parses_getU64.bind fun count _ => hfloat.bind fun mean _ => hfloat.bind fun m2 _ =>
    (parses_getExact v (Carrier.ofBits sum : α)).bind fun exact _ => parses_pure
      (⟨⟨Carrier.ofBits sum, Carrier.ofBits max, Carrier.ofBits min⟩,
        ⟨count, Carrier.ofBits mean, Carrier.ofBits m2⟩,
        ColumnImage.exactSum (Carrier.ofBits sum : α) exact⟩ : ColumnState α)).congr
  intro s t
  constructor
  · rintro ⟨sum, -, _, ⟨max, -, _, ⟨min, -, _, ⟨count, -, _, ⟨mean, -, _, ⟨m2, -, _,
      ⟨exact, he, _, ⟨rfl, rfl⟩, rfl⟩, rfl⟩, rfl⟩, rfl⟩, rfl⟩, rfl⟩, rfl⟩
    exact ⟨⟨sum, max, min, count, mean, m2, exact⟩, he, by simp [ColumnImage.bytes], rfl⟩
  · rintro ⟨⟨sum, max, min, count, mean, m2, exact⟩, he, rfl, rfl⟩
    refine ⟨sum, trivial, _, ⟨max, trivial, _, ⟨min, trivial, _, ⟨count, trivial, _,
      ⟨mean, trivial, _, ⟨m2, trivial, _, ⟨exact, he, _, ⟨rfl, rfl⟩, rfl⟩, rfl⟩, rfl⟩, rfl⟩,
      rfl⟩, rfl⟩, ?_⟩
    simp [ColumnImage.bytes]

theorem length_columns (v : UInt8) (cs : List ColumnImage) (h : ∀ c ∈ cs, c.Fits v) :
    (cs.flatMap ColumnImage.bytes).length = cs.length * columnSize v := by
  induction cs with
  | nil => simp
  | cons c cs ih =>
    have hc := ColumnImage.length_bytes v c (h c (List.mem_cons_self ..))
    have hcs := ih fun c' hc' => h c' (List.mem_cons_of_mem _ hc')
    rw [List.flatMap_cons, List.length_append, hc, hcs, List.length_cons, Nat.succ_mul]
    omega

theorem parses_getAggregate (v : UInt8) :
    Parses (getAggregate v : Decoder (Aggregate α))
      (Spells (AggregateImage.Fits v) AggregateImage.bytes AggregateImage.value) := by
  have hcolumns (arity : Nat) (kind floor : UInt8) (rows : UInt64) :=
    (((parses_getMany (@parses_getColumn α _ v) arity).map
      fun states => Aggregate.restore ⟨kind.toNat⟩ (floor == 1) rows states).expect []).reserve
        arity (columnSize v) (by
          rintro a t ⟨cs, ⟨rfl, hcs⟩, rfl, rfl⟩
          exact Nat.le_of_eq (length_columns v cs hcs).symm)
  apply (parses_getU32.bind fun arity _ => (parses_getByte.bind fun kind _ =>
    parses_getByte.bind fun floor _ => parses_getU64.bind fun rows _ =>
      hcolumns arity kind floor rows).expect [arity]).congr
  intro a t
  constructor
  · rintro ⟨arity, harity, _, ⟨kind, -, _, ⟨floor, -, _, ⟨rows, -, _,
      ⟨cs, ⟨rfl, hcs⟩, rfl, rfl⟩, rfl⟩, rfl⟩, rfl⟩, rfl⟩
    exact ⟨⟨kind, floor, rows, cs⟩, ⟨harity, hcs⟩, by simp [AggregateImage.bytes], rfl⟩
  · rintro ⟨⟨kind, floor, rows, cs⟩, ⟨harity, hcs⟩, rfl, rfl⟩
    refine ⟨cs.length, harity, _, ⟨kind, trivial, _, ⟨floor, trivial, _, ⟨rows, trivial, _,
      ⟨cs, ⟨rfl, hcs⟩, rfl, rfl⟩, rfl⟩, rfl⟩, rfl⟩, ?_⟩
    simp [AggregateImage.bytes]

/-- Every text has four bytes of length, so a list of them has room for its count. -/
theorem length_texts (ts : List Text) : ts.length ≤ (ts.flatMap putText).length := by
  induction ts with
  | nil => simp
  | cons t ts ih =>
    simp only [List.flatMap_cons, List.length_append, List.length_cons, putText, length_putU32]
    omega

theorem parses_getTexts (n : Nat) :
    Parses (getMany getText n []) (Spells
      (fun ts => ts.length = n ∧ ∀ t ∈ ts, t.length < UInt32.size) (List.flatMap putText)
      fun ts => ts) := by
  apply (parses_getMany parses_getText n).congr
  intro ts t
  simp [Spells]

theorem parses_getHeading :
    Parses getHeading (Spells Heading.Fits Heading.bytes fun h => h) := by
  have hsources (v : UInt8) (id created : UInt64) (layout title : Text) (count : Nat) :=
    (((parses_getTexts count).map (Heading.mk v id created layout title)).expect [0]).reserve
      count 1 (by
        rintro h t ⟨sources, ⟨rfl, -⟩, rfl, rfl⟩
        have := length_texts sources
        omega)
  apply ((parses_getVersion.bind fun v _ => parses_getU64.bind fun id _ =>
    parses_getU64.bind fun created _ => parses_getText.bind fun layout _ =>
    parses_getText.bind fun title _ => parses_getU32.bind fun count _ =>
      hsources v id created layout title count).expect [0, 0]).congr
  intro h t
  constructor
  · rintro ⟨v, hv, _, ⟨id, -, _, ⟨created, -, _, ⟨layout, hl, _, ⟨title, ht, _, ⟨count, hn, _,
      ⟨sources, ⟨rfl, hs⟩, rfl, rfl⟩, rfl⟩, rfl⟩, rfl⟩, rfl⟩, rfl⟩, rfl⟩
    exact ⟨⟨v, id, created, layout, title, sources⟩, ⟨hv, hl, ht, hn, hs⟩,
      by simp [Heading.bytes], rfl⟩
  · rintro ⟨⟨v, id, created, layout, title, sources⟩, ⟨hv, hl, ht, hn, hs⟩, rfl, rfl⟩
    refine ⟨v, hv, _, ⟨id, trivial, _, ⟨created, trivial, _, ⟨layout, hl, _, ⟨title, ht, _,
      ⟨sources.length, hn, _, ⟨sources, ⟨rfl, hs⟩, rfl, rfl⟩, rfl⟩, rfl⟩, rfl⟩, rfl⟩, rfl⟩, ?_⟩
    simp [Heading.bytes]

theorem parses_getSnapshot :
    Parses (getSnapshot : Decoder (Snapshot α))
      (Spells Image.WellFormed Image.bytes Image.snapshot) := by
  apply (parses_getHeading.bind fun h _ => (parses_getAggregate h.version).map
    (Snapshot.mk h.id h.created.toInt64 h.layout h.title h.sources)).congr
  intro s t
  constructor
  · rintro ⟨h, hh, _, ⟨agg, ha, rfl, rfl⟩, rfl⟩
    exact ⟨⟨h.version, h.id, h.created, h.layout, h.title, h.sources, agg⟩,
      ⟨hh.version, hh.layout, hh.title, hh.sourceCount, hh.sources, ha⟩, rfl, rfl⟩
  · rintro ⟨i, hi, rfl, rfl⟩
    exact ⟨i.heading, hi.heading, _,
      ⟨i.aggregate, hi.aggregate, rfl, rfl⟩, rfl⟩

/-! ## Accepted bytes -/

theorem decode_run (b : Text) :
    (decode b : Except SnapshotError (Snapshot α)) = match getSnapshot { rest := b } with
      | .ok s c => if c.rest = [] then .ok s else .error (.trailing c.rest.length)
      | .error e _ => .error e := by
  unfold decode
  rw [bind_run]
  cases hr : (getSnapshot : Decoder (Snapshot α)) { rest := b } with
  | error e c => rfl
  | ok s c =>
    change (match (getEnd >>= fun _ => pure s : Decoder (Snapshot α)) c with
      | .ok s _ => Except.ok s
      | .error e _ => .error e) = _
    rw [bind_run]
    cases hc : c.rest with
    | nil =>
      simp only [getEnd, hc]
      rfl
    | cons b rest => simp [getEnd, hc]

/-- **The format.**  Decoding succeeds on the well-formed images, with
nothing left after them, and on nothing else. -/
theorem decode_eq_ok_iff (b : Text) (s : Snapshot α) :
    decode b = .ok s ↔ ∃ i : Image, i.WellFormed ∧ i.bytes = b ∧ i.snapshot = s := by
  have hp := parses_getSnapshot { rest := b } s []
  rw [decode_run]
  constructor
  · intro h
    cases hr : (getSnapshot : Decoder (Snapshot α)) { rest := b } with
    | error e c => simp [hr] at h
    | ok s' c =>
      rw [hr] at h
      by_cases hc : c.rest = []
      · simp only [hc, ↓reduceIte, Except.ok.injEq] at h
        subst h
        obtain ⟨_, ⟨i, hi, rfl, rfl⟩, hb⟩ := hp.mp ⟨c, hr, hc⟩
        exact ⟨i, hi, by simpa using hb.symm, rfl⟩
      · simp [hc] at h
  · rintro ⟨i, hi, hb, hs⟩
    obtain ⟨c, hr, hc⟩ := hp.mpr ⟨i.bytes, ⟨i, hi, rfl, hs.symm⟩, by simp [hb]⟩
    simp [hr, hc]

theorem decode_bytes (i : Image) (h : i.WellFormed) :
    decode i.bytes = .ok (i.snapshot : Snapshot α) :=
  (decode_eq_ok_iff i.bytes i.snapshot).mpr ⟨i, h, rfl, rfl⟩

/-- What follows an image is counted and refused. -/
theorem decode_bytes_append (i : Image) (h : i.WellFormed) (t : Text) (ht : t ≠ []) :
    (decode (i.bytes ++ t) : Except SnapshotError (Snapshot α)) =
      .error (.trailing t.length) := by
  obtain ⟨c, hr, hc⟩ := (parses_getSnapshot { rest := i.bytes ++ t } (i.snapshot : Snapshot α)
    t).mpr ⟨i.bytes, ⟨i, h, rfl, rfl⟩, rfl⟩
  rw [decode_run, hr]
  simp [hc, ht]

theorem stays_getVersion : Stays getVersion :=
  stays_getByte.bind fun v => by
    split
    · exact stays_pure v
    · exact stays_throw _

theorem stays_getExact (v : UInt8) (sum : α) : Stays (getExact v sum) := by
  unfold getExact
  split
  · exact stays_pure _
  · exact stays_getU64.bind fun _ => stays_pure _

theorem stays_getColumn (v : UInt8) : Stays (getColumn v : Decoder (ColumnState α)) :=
  stays_getFloat.bind fun sum => stays_getFloat.bind fun _ => stays_getFloat.bind fun _ =>
    stays_getU64.bind fun _ => stays_getFloat.bind fun _ => stays_getFloat.bind fun _ =>
      (stays_getExact v sum).bind fun _ => stays_pure _

theorem stays_getAggregate (v : UInt8) : Stays (getAggregate v : Decoder (Aggregate α)) :=
  stays_getU32.bind fun arity => (stays_expect [arity]).bind fun _ =>
    stays_getByte.bind fun _ => stays_getByte.bind fun _ => stays_getU64.bind fun _ =>
      (stays_reserve arity _).bind fun _ => (stays_expect []).bind fun _ =>
        ((stays_getColumn v).getMany arity []).bind fun _ => stays_pure _

theorem stays_getHeading : Stays getHeading :=
  (stays_expect [0, 0]).bind fun _ => stays_getVersion.bind fun _ =>
    stays_getU64.bind fun _ => stays_getU64.bind fun _ => stays_getText.bind fun _ =>
      stays_getText.bind fun _ => stays_getU32.bind fun count =>
        (stays_reserve count 1).bind fun _ => (stays_expect [0]).bind fun _ =>
          (stays_getText.getMany count []).bind fun _ => stays_pure _

theorem stays_getSnapshot : Stays (getSnapshot : Decoder (Snapshot α)) :=
  stays_getHeading.bind fun h => (stays_getAggregate h.version).bind fun _ => stays_pure _

/-- **Exactly the format.**  Decoding succeeds if and only if the bytes are
those of a well-formed image, and every field of the snapshot then is its part
of the image. On all other bytes it gives an error, with the cursor still inside
the buffer. So neither more bytes nor fewer are accepted in place of accepted
ones. All of this holds for whatever the 64-bit numbers are read into. -/
theorem decode_accepts_exactly_images (b : Text) :
    (∀ s : Snapshot α, decode b = .ok s ↔
      ∃ i : Image, i.WellFormed ∧ i.bytes = b ∧ i.Describes s) ∧
    ((∃ e, (decode b : Except SnapshotError (Snapshot α)) = .error e) ↔
      ¬ ∃ i : Image, i.WellFormed ∧ i.bytes = b) ∧
    (ending ((getSnapshot : Decoder (Snapshot α)) { rest := b })).rest <:+ b ∧
    (∀ (s : Snapshot α) t, decode b = .ok s → t ≠ [] →
      (decode (b ++ t) : Except SnapshotError (Snapshot α)) = .error (.trailing t.length)) ∧
    (∀ (s : Snapshot α) p t, decode b = .ok s → b = p ++ t → t ≠ [] →
      ∃ e, (decode p : Except SnapshotError (Snapshot α)) = .error e) := by
  refine ⟨?_, ?_, stays_getSnapshot { rest := b }, ?_, ?_⟩
  · intro s
    simp only [decode_eq_ok_iff, Image.describes_iff]
  · constructor
    · rintro ⟨e, he⟩ ⟨i, hi, rfl⟩
      rw [decode_bytes i hi] at he
      cases he
    · intro h
      cases hd : (decode b : Except SnapshotError (Snapshot α)) with
      | error e => exact ⟨e, rfl⟩
      | ok s =>
        obtain ⟨i, hi, hb, -⟩ := (decode_eq_ok_iff b s).mp hd
        exact absurd ⟨i, hi, hb⟩ h
  · intro s t hs ht
    obtain ⟨i, hi, rfl, -⟩ := (decode_eq_ok_iff b s).mp hs
    exact decode_bytes_append i hi t ht
  · intro s p t hs hb ht
    cases hp : (decode p : Except SnapshotError (Snapshot α)) with
    | error e => exact ⟨e, rfl⟩
    | ok s' =>
      -- an accepted prefix would leave `t` behind it
      obtain ⟨i, hi, rfl, -⟩ := (decode_eq_ok_iff p s').mp hp
      rw [hb, decode_bytes_append i hi t ht] at hs
      cases hs

/-- One column of the old version, whose mean is an indefinite value of its own
and whose sum is three and a half; the byte for rounding is neither zero nor
one. -/
def oldImage : Image where
  version := oldVersion
  id := 3
  created := 0
  layout := [97]
  title := []
  sources := [[98, 99]]
  aggregate := { kind := wholeKind, floor := 2, rows := 1,
                 columns := [⟨0x400C000000000000, 0, 0, 1, 0x7FF8000000000001, 0, none⟩] }

theorem decode_oldImage : ∃ s : Snapshot Pattern, decode oldImage.bytes = .ok s ∧
    s.id = 3 ∧ s.aggregate.arity = 1 ∧ s.aggregate.floor = false ∧
    s.aggregate.moments = [⟨1, ⟨0x7FF8000000000001⟩, ⟨0⟩⟩] ∧ s.aggregate.exact = [3] ∧
    (decode (oldImage.bytes ++ [0]) : Except SnapshotError (Snapshot Pattern)) =
      .error (.trailing 1) := by
  have hi : oldImage.WellFormed := by
    refine ⟨.inr rfl, by decide, by decide, by decide, ?_, by decide, ?_⟩
    · simp [oldImage, UInt32.size]
    · simp [oldImage, ColumnImage.Fits]
  obtain ⟨hok, -, -, hmore, -⟩ := decode_accepts_exactly_images (α := Pattern) oldImage.bytes
  have hd := (hok oldImage.snapshot).mpr ⟨oldImage, hi, rfl, (Image.describes_iff _ _).mpr rfl⟩
  exact ⟨_, hd, rfl, rfl, rfl, rfl, by decide, hmore _ [0] hd (by decide)⟩

end PerfReport.Snapshot
