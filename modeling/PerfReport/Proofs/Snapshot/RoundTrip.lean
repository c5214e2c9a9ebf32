import Mathlib
import PerfReport.Proofs.Aggregate.Shape
import PerfReport.Proofs.Snapshot.Format

/-!
# Snapshots read back

What is written for a snapshot is a well-formed image that stands for it, so
reading gives the snapshot back, field by field and bit by bit. It takes
lengths that fit four bytes, a kind that fits one, and an aggregate in shape.
Aggregates that come from operations are in shape (`Reachable.shaped`), so
all of them survive the archive.
-/

namespace PerfReport

variable {α : Type}

/-! ## Columns side by side -/

namespace Aggregate

theorem Shaped.length_columnStates {agg : Aggregate α} (h : agg.Shaped) :
    agg.columnStates.length = agg.arity := by
  unfold columnStates
  by_cases hk : agg.kind = .integer
  · simp [hk, h.columns, h.moments, h.exact_integer hk]
  · simp [hk, h.columns, h.moments]

theorem Shaped.map_column {agg : Aggregate α} (h : agg.Shaped) :
    agg.columnStates.map ColumnState.column = agg.columns := by
  apply List.ext_getElem
  · rw [List.length_map, h.length_columnStates, h.columns]
  · intro i h₁ h₂
    simp [columnStates]

theorem Shaped.map_moments {agg : Aggregate α} (h : agg.Shaped) :
    agg.columnStates.map ColumnState.moments = agg.moments := by
  apply List.ext_getElem
  · rw [List.length_map, h.length_columnStates, h.moments]
  · intro i h₁ h₂
    simp [columnStates]

theorem Shaped.map_exact {agg : Aggregate α} (h : agg.Shaped) (hk : agg.kind = .integer) :
    agg.columnStates.map ColumnState.exact = agg.exact := by
  apply List.ext_getElem
  · rw [List.length_map, h.length_columnStates, h.exact_integer hk]
  · intro i h₁ h₂
    simp [columnStates, hk]

/-- An aggregate in shape is put together again from its columns. -/
theorem Shaped.restore_columnStates {agg : Aggregate α} (h : agg.Shaped) :
    restore agg.kind agg.floor agg.rows agg.columnStates = agg := by
  have hexact : (if agg.kind = .integer then agg.columnStates.map ColumnState.exact else []) =
      agg.exact := by
    by_cases hk : agg.kind = .integer
    · rw [if_pos hk, h.map_exact hk]
    · rw [if_neg hk, h.exact_nil hk]
  rw [restore, hexact, h.length_columnStates, h.map_column, h.map_moments]

theorem shaped_restore (kind : NumericKind) (floor : Bool) (rows : UInt64)
    (states : List (ColumnState α)) : (restore kind floor rows states).Shaped := by
  refine ⟨by simp [restore], by simp [restore], ?_⟩
  by_cases hk : kind = .integer <;> simp [restore, exactArity, hk]

end Aggregate

/-! ## The image of a snapshot -/

/-- Storing loses nothing. -/
class LawfulCarrier (α : Type) [Carrier α] : Prop where
  ofBits_toBits (x : α) : Carrier.ofBits (Carrier.toBits x) = x

instance : LawfulCarrier Float where
  ofBits_toBits := Float.ofBits_toBits

instance : LawfulCarrier Pattern where
  ofBits_toBits _ := rfl

variable [Carrier α]

/-- Lengths that fit four bytes and a kind that fits one. -/
structure Snapshot.Encodable (s : Snapshot α) : Prop where
  layout : s.layout.length < UInt32.size
  title : s.title.length < UInt32.size
  sourceCount : s.sources.length < UInt32.size
  sources : ∀ t ∈ s.sources, t.length < UInt32.size
  arity : s.aggregate.arity < UInt32.size
  kind : 0 ≤ s.aggregate.kind.code ∧ s.aggregate.kind.code ≤ 255

def ColumnState.image (s : ColumnState α) : Snapshot.ColumnImage where
  sum := Carrier.toBits s.column.sum
  max := Carrier.toBits s.column.max
  min := Carrier.toBits s.column.min
  count := s.moments.count
  mean := Carrier.toBits s.moments.mean
  m2 := Carrier.toBits s.moments.m2
  exact := some s.exact.toUInt64

theorem ColumnState.bytes_image (s : ColumnState α) : s.image.bytes = Snapshot.putColumn s := rfl

theorem ColumnState.state_image [LawfulCarrier α] (s : ColumnState α) : s.image.state = s := by
  simp [image, Snapshot.ColumnImage.state, Snapshot.ColumnImage.exactSum,
    LawfulCarrier.ofBits_toBits]

theorem NumericKind.toNat_kindByte (kind : NumericKind) (h : 0 ≤ kind.code ∧ kind.code ≤ 255) :
    (⟨(Snapshot.kindByte kind).toNat⟩ : NumericKind) = kind := by
  obtain ⟨code⟩ := kind
  simp only at h
  have hcode : (code % 256).toNat = code.toNat := by omega
  simp only [Snapshot.kindByte, hcode, UInt8.toNat_ofNat', NumericKind.mk.injEq]
  omega

namespace Aggregate

def image (agg : Aggregate α) : Snapshot.AggregateImage where
  kind := Snapshot.kindByte agg.kind
  floor := if agg.floor then 1 else 0
  rows := agg.rows
  columns := agg.columnStates.map ColumnState.image

theorem Shaped.bytes_image {agg : Aggregate α} (h : agg.Shaped) :
    agg.image.bytes = Snapshot.putAggregate agg := by
  simp only [image, Snapshot.AggregateImage.bytes, Snapshot.putAggregate, List.length_map,
    h.length_columnStates, List.flatMap_map, ColumnState.bytes_image]
  simp

theorem Shaped.value_image [LawfulCarrier α] {agg : Aggregate α} (h : agg.Shaped)
    (hk : 0 ≤ agg.kind.code ∧ agg.kind.code ≤ 255) : agg.image.value = agg := by
  have hstates : (agg.columnStates.map ColumnState.image).map Snapshot.ColumnImage.state =
      agg.columnStates := by
    simp [Function.comp_def, ColumnState.state_image]
  have hfloor : ((if agg.floor then 1 else 0 : UInt8) == 1) = agg.floor := by
    cases agg.floor <;> rfl
  simp only [image, Snapshot.AggregateImage.value, hstates, hfloor,
    NumericKind.toNat_kindByte agg.kind hk]
  exact h.restore_columnStates

end Aggregate

namespace Snapshot

/-- What is written for a snapshot. -/
def image (s : Snapshot α) : Image where
  version := version
  id := s.id
  created := s.created.toUInt64
  layout := s.layout
  title := s.title
  sources := s.sources
  aggregate := s.aggregate.image

theorem bytes_image {s : Snapshot α} (h : s.aggregate.Shaped) : s.image.bytes = s.encode := by
  simp [image, Image.bytes, encode, h.bytes_image]

theorem snapshot_image [LawfulCarrier α] {s : Snapshot α} (hs : s.Encodable)
    (h : s.aggregate.Shaped) : s.image.snapshot = s := by
  simp [image, Image.snapshot, h.value_image hs.kind]

theorem wellFormed_image {s : Snapshot α} (hs : s.Encodable) (h : s.aggregate.Shaped) :
    s.image.WellFormed where
  version := Or.inl rfl
  layout := hs.layout
  title := hs.title
  sourceCount := hs.sourceCount
  sources := hs.sources
  aggregate := by
    refine ⟨?_, ?_⟩
    · simpa [image, Aggregate.image, h.length_columnStates] using hs.arity
    · intro c hc
      obtain ⟨state, -, rfl⟩ := List.mem_map.mp hc
      simp [ColumnImage.Fits, ColumnState.image, image, version, oldVersion]

/-- **Round trip.**  Decoding undoes encoding. -/
theorem decode_encode [LawfulCarrier α] {s : Snapshot α} (hs : s.Encodable)
    (h : s.aggregate.Shaped) : decode s.encode = .ok s := by
  rw [← bytes_image h, decode_bytes s.image (wellFormed_image hs h), snapshot_image hs h]

end Snapshot

end PerfReport
