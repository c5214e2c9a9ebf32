import PerfReport.Proofs.Number.Rational
import PerfReport.Proofs.Snapshot.RoundTrip

/-!
# Canonical images

Reading forgets three things: any byte but one means that means are not rounded
down, an exact sum counts for whole numbers only, and the old version has none.
Writing what was read therefore gives one image for all those that mean the
same, in the current version.

* `Image.bytes_inj`: an image is determined by its bytes;
* `encode_snapshot`: what is written for the meaning of an image is its canonical form;
* `Image.canonical_eq_iff`: which images are canonical already;
* `encode_decode_canonical`: all of this for any bytes that can be read.
-/

namespace PerfReport.Snapshot

/-! ## Bytes determine an image -/

/-- A decoder that gives what was written tells two texts apart. -/
theorem Parses.inj {ι : Type} {d : Decoder ι} {ok : ι → Prop} {bytes : ι → Text}
    (hd : Parses d (Spells ok bytes fun i => i)) {i j : ι} (hi : ok i) (hj : ok j) {t u : Text}
    (h : bytes i ++ t = bytes j ++ u) : i = j ∧ t = u := by
  obtain ⟨c, hc, hrest⟩ := (hd { rest := bytes i ++ t } i t).mpr ⟨_, ⟨i, hi, rfl, rfl⟩, rfl⟩
  obtain ⟨c', hc', hrest'⟩ := (hd { rest := bytes i ++ t } j u).mpr ⟨_, ⟨j, hj, rfl, rfl⟩, h⟩
  rw [hc] at hc'
  cases hc'
  exact ⟨rfl, hrest.symm.trans hrest'⟩

theorem putU64_inj {a b : UInt64} {t u : Text} (h : putU64 a ++ t = putU64 b ++ u) :
    a = b ∧ t = u :=
  parses_getU64.inj trivial trivial h

theorem ColumnImage.bytes_inj {v : UInt8} {c d : ColumnImage} (hc : c.Fits v) (hd : d.Fits v)
    {t u : Text} (h : c.bytes ++ t = d.bytes ++ u) : c = d ∧ t = u := by
  obtain ⟨sum, max, min, count, mean, m2, exact⟩ := c
  obtain ⟨sum', max', min', count', mean', m2', exact'⟩ := d
  simp only [bytes, List.append_assoc] at h
  obtain ⟨hsum, h⟩ := putU64_inj h
  obtain ⟨hmax, h⟩ := putU64_inj h
  obtain ⟨hmin, h⟩ := putU64_inj h
  obtain ⟨hcount, h⟩ := putU64_inj h
  obtain ⟨hmean, h⟩ := putU64_inj h
  obtain ⟨hm2, h⟩ := putU64_inj h
  have hboth : exact = none ↔ exact' = none := hc.trans hd.symm
  have hexact : exact = exact' ∧ t = u := by
    cases exact with
    | none =>
      obtain rfl := hboth.mp rfl
      exact ⟨rfl, h⟩
    | some w =>
      cases exact' with
      | none => simp at hboth
      | some w' =>
        obtain ⟨hw, h⟩ := putU64_inj h
        exact ⟨congrArg some hw, h⟩
  obtain ⟨rfl, htail⟩ := hexact
  subst hsum hmax hmin hcount hmean hm2
  exact ⟨rfl, htail⟩

/-- The number of columns stands before them, so it is the same on both sides. -/
theorem columns_inj {v : UInt8} {cs ds : List ColumnImage} (hcs : ∀ c ∈ cs, c.Fits v)
    (hds : ∀ d ∈ ds, d.Fits v) (hlen : cs.length = ds.length)
    (h : cs.flatMap ColumnImage.bytes = ds.flatMap ColumnImage.bytes) : cs = ds := by
  induction cs generalizing ds with
  | nil => exact (List.length_eq_zero_iff.mp hlen.symm).symm
  | cons c cs ih =>
    cases ds with
    | nil => simp at hlen
    | cons d ds =>
      obtain ⟨hc, hcs⟩ := List.forall_mem_cons.mp hcs
      obtain ⟨hd, hds⟩ := List.forall_mem_cons.mp hds
      rw [List.flatMap_cons, List.flatMap_cons] at h
      obtain ⟨hfirst, hmore⟩ := ColumnImage.bytes_inj hc hd h
      rw [hfirst, ih hcs hds (by simpa using hlen) hmore]

theorem AggregateImage.bytes_inj {v : UInt8} {a b : AggregateImage} (ha : a.Fits v)
    (hb : b.Fits v) (h : a.bytes = b.bytes) : a = b := by
  obtain ⟨kind, floor, rows, cs⟩ := a
  obtain ⟨kind', floor', rows', ds⟩ := b
  simp only [bytes, List.append_assoc] at h
  obtain ⟨hlen, h⟩ := parses_getU32.inj ha.1 hb.1 h
  simp only [List.cons_append, List.nil_append, List.cons.injEq] at h
  obtain ⟨hkind, hfloor, h⟩ := h
  obtain ⟨hrows, h⟩ := putU64_inj h
  have hcolumns : cs = ds := columns_inj ha.2 hb.2 hlen h
  rw [hkind, hfloor, hrows, hcolumns]

theorem Image.bytes_eq (i : Image) : i.bytes = i.heading.bytes ++ i.aggregate.bytes := rfl

/-- **One image.**  Well-formed images with the same bytes are the same. -/
theorem Image.bytes_inj {i j : Image} (hi : i.WellFormed) (hj : j.WellFormed)
    (h : i.bytes = j.bytes) : i = j := by
  rw [bytes_eq, bytes_eq] at h
  obtain ⟨hheading, h⟩ := parses_getHeading.inj hi.heading hj.heading h
  obtain ⟨version, id, created, layout, title, sources, a⟩ := i
  obtain ⟨version', id', created', layout', title', sources', b⟩ := j
  simp only [Image.heading, Heading.mk.injEq] at hheading
  obtain ⟨rfl, rfl, rfl, rfl, rfl, rfl⟩ := hheading
  obtain rfl := AggregateImage.bytes_inj hi.aggregate hj.aggregate h
  rfl

/-! ## The canonical form -/

/-- The exact sum that is written back: that of the image or the truncated sum
for whole numbers, none otherwise. -/
def ColumnImage.canonical (kind : UInt8) (c : ColumnImage) : ColumnImage :=
  { c with
    exact := some (if kind = wholeKind then (c.state : ColumnState Pattern).exact.toUInt64 else 0) }

def AggregateImage.canonical (a : AggregateImage) : AggregateImage where
  kind := a.kind
  floor := if a.floor = 1 then 1 else 0
  rows := a.rows
  columns := a.columns.map (ColumnImage.canonical a.kind)

def Image.canonical (i : Image) : Image :=
  { i with version := Snapshot.version, aggregate := i.aggregate.canonical }

/-- Columns that are read come back as they are, apart from exact sums that
nobody asked for. -/
theorem columnStates_restore (kind : NumericKind) (floor : Bool) (rows : UInt64)
    (states : List (ColumnState Pattern)) :
    (Aggregate.restore kind floor rows states).columnStates =
      states.map fun s => { s with exact := if kind = .integer then s.exact else 0 } := by
  apply List.ext_getElem
  · by_cases hk : kind = .integer <;> simp [Aggregate.restore, Aggregate.columnStates, hk]
  · intro i h₁ h₂
    by_cases hk : kind = .integer <;> simp [Aggregate.restore, Aggregate.columnStates, hk]

theorem ColumnImage.image_state (kind : UInt8) (c : ColumnImage) :
    ColumnState.image { (c.state : ColumnState Pattern) with
      exact := if (⟨kind.toNat⟩ : NumericKind) = .integer then (c.state : ColumnState Pattern).exact
        else 0 } = c.canonical kind := by
  by_cases hk : kind = wholeKind
  · obtain rfl := hk
    rfl
  · simp only [mt (kind_integer_iff kind).mp hk, hk, ColumnImage.canonical, if_false]
    rfl

theorem AggregateImage.image_value (a : AggregateImage) :
    (a.value : Aggregate Pattern).image = a.canonical := by
  have hkind : kindByte ⟨a.kind.toNat⟩ = a.kind := by
    have hlt : (a.kind.toNat : Int) < 256 := Int.ofNat_lt.mpr a.kind.toNat_lt
    have hcode : ((a.kind.toNat : Int) % 256).toNat = a.kind.toNat := by omega
    rw [kindByte, hcode, UInt8.ofNat_toNat]
  have hfloor : (if (a.floor == 1) = true then 1 else 0 : UInt8) = if a.floor = 1 then 1 else 0 := by
    simp only [beq_iff_eq]
  have hcolumns : (a.value : Aggregate Pattern).columnStates.map ColumnState.image =
      a.columns.map (ColumnImage.canonical a.kind) := by
    rw [AggregateImage.value, columnStates_restore, List.map_map, List.map_map]
    exact List.map_congr_left fun c _ => ColumnImage.image_state a.kind c
  rw [Aggregate.image, hcolumns]
  exact congrArg₂ (AggregateImage.mk · · _ _) hkind hfloor

theorem Image.image_snapshot (i : Image) : (i.snapshot : Snapshot Pattern).image = i.canonical := by
  have haggregate := i.aggregate.image_value
  simp [Snapshot.image, Image.snapshot, Image.canonical, haggregate]

theorem shaped_snapshot (i : Image) : (i.snapshot : Snapshot Pattern).aggregate.Shaped :=
  Aggregate.shaped_restore ..

/-- **Writing back.** -/
theorem encode_snapshot (i : Image) : (i.snapshot : Snapshot Pattern).encode = i.canonical.bytes := by
  rw [← i.image_snapshot, bytes_image (shaped_snapshot i)]

theorem Image.WellFormed.canonical {i : Image} (h : i.WellFormed) : i.canonical.WellFormed where
  version := .inl rfl
  layout := h.layout
  title := h.title
  sourceCount := h.sourceCount
  sources := h.sources
  aggregate := by
    refine ⟨?_, ?_⟩
    · simpa [Image.canonical, AggregateImage.canonical] using h.aggregate.1
    · intro c hc
      obtain ⟨c, -, rfl⟩ := List.mem_map.mp hc
      have hnew : i.canonical.version ≠ oldVersion :=
        show Snapshot.version ≠ oldVersion by decide
      simp [ColumnImage.Fits, ColumnImage.canonical, hnew]

theorem encodable_snapshot {i : Image} (h : i.WellFormed) :
    (i.snapshot : Snapshot Pattern).Encodable where
  layout := h.layout
  title := h.title
  sourceCount := h.sourceCount
  sources := h.sources
  arity := by simpa [Image.snapshot, AggregateImage.value, Aggregate.restore] using h.aggregate.1
  kind := by
    have hlt : (i.aggregate.kind.toNat : Int) < 256 := Int.ofNat_lt.mpr i.aggregate.kind.toNat_lt
    simp only [Image.snapshot, AggregateImage.value, Aggregate.restore]
    omega

/-! ## Canonical images -/

/-- The current version, a byte for rounding that is no other way to say no,
and exact sums for whole numbers only. -/
structure Image.IsCanonical (i : Image) : Prop where
  version : i.version = Snapshot.version
  floor : i.aggregate.floor = 0 ∨ i.aggregate.floor = 1
  exact : i.aggregate.kind = wholeKind ∨ ∀ c ∈ i.aggregate.columns, c.exact = some 0

theorem ColumnImage.canonical_eq_iff (kind : UInt8) {c : ColumnImage} (h : c.exact ≠ none) :
    c.canonical kind = c ↔ kind = wholeKind ∨ c.exact = some 0 := by
  obtain ⟨w, hw⟩ := Option.ne_none_iff_exists'.mp h
  obtain ⟨sum, max, min, count, mean, m2, exact⟩ := c
  obtain rfl : exact = some w := hw
  by_cases hk : kind = wholeKind
  · simp [ColumnImage.canonical, hk, ColumnImage.state, ColumnImage.exactSum]
  · simp [ColumnImage.canonical, hk, eq_comm]

theorem AggregateImage.canonical_eq_iff {a : AggregateImage}
    (h : ∀ c ∈ a.columns, c.exact ≠ none) : a.canonical = a ↔
      (a.floor = 0 ∨ a.floor = 1) ∧
        (a.kind = wholeKind ∨ ∀ c ∈ a.columns, c.exact = some 0) := by
  obtain ⟨kind, floor, rows, columns⟩ := a
  have hfloor : (if floor = 1 then 1 else 0) = floor ↔ floor = 0 ∨ floor = 1 := by
    by_cases hf : floor = 1
    · simp [hf]
    · simp [hf, eq_comm]
  have hcolumns : columns.map (ColumnImage.canonical kind) = columns ↔
      ∀ c ∈ columns, c.canonical kind = c := by
    rw [← List.map_inj_left, List.map_id']
  simp only [AggregateImage.canonical, AggregateImage.mk.injEq, true_and, hfloor, hcolumns]
  refine and_congr_right fun _ => ?_
  have hstep : (∀ c ∈ columns, c.canonical kind = c) ↔
      ∀ c ∈ columns, kind = wholeKind ∨ c.exact = some 0 :=
    forall₂_congr fun c hc => ColumnImage.canonical_eq_iff kind (h c hc)
  rw [hstep]
  by_cases hk : kind = wholeKind <;> simp [hk]

/-- **Fixed points.**  Exactly the canonical images are their own canonical form. -/
theorem Image.canonical_eq_iff {i : Image} (h : i.WellFormed) :
    i.canonical = i ↔ i.IsCanonical := by
  have hsplit : i.canonical = i ↔
      Snapshot.version = i.version ∧ i.aggregate.canonical = i.aggregate := by
    obtain ⟨v, id, created, layout, title, sources, a⟩ := i
    simp [Image.canonical]
  have hexact (hv : Snapshot.version = i.version) : ∀ c ∈ i.aggregate.columns, c.exact ≠ none := by
    intro c hc hnone
    have hold := (h.aggregate.2 c hc).mp hnone
    rw [← hv] at hold
    exact absurd hold (by decide)
  rw [hsplit]
  constructor
  · rintro ⟨hv, ha⟩
    obtain ⟨hfloor, hcolumns⟩ := (AggregateImage.canonical_eq_iff (hexact hv)).mp ha
    exact ⟨hv.symm, hfloor, hcolumns⟩
  · rintro ⟨hv, hfloor, hcolumns⟩
    exact ⟨hv.symm, (AggregateImage.canonical_eq_iff (hexact hv.symm)).mpr ⟨hfloor, hcolumns⟩⟩

/-- A whole-number aggregate of the old version gets its sums, cut toward zero,
as exact sums. -/
theorem exact_of_oldVersion {i : Image} (h : i.WellFormed) (hv : i.version = oldVersion)
    (hk : i.aggregate.kind = wholeKind) :
    List.Forall₂ (fun c e => ∀ q, (Binary64.Value.ofBits c.sum.toNat).rational? = some q →
      Int64.InRange (Binary64.towardZero q) → e.toInt = Binary64.towardZero q)
      i.aggregate.columns (i.snapshot : Snapshot Pattern).aggregate.exact := by
  have hexact : (i.snapshot : Snapshot Pattern).aggregate.exact =
      i.aggregate.columns.map fun c => (c.state : ColumnState Pattern).exact := by
    simp only [Image.snapshot, AggregateImage.value, Aggregate.restore,
      (kind_integer_iff _).mpr hk, if_true, List.map_map]
    rfl
  rw [hexact, List.forall₂_map_right_iff, List.forall₂_same]
  intro c hc q hq hfits
  have hnone : c.exact = none := (h.aggregate.2 c hc).mpr hv
  have hsum : (c.state : ColumnState Pattern).exact = Double.truncate c.sum := by
    simp only [ColumnImage.state, hnone]
    rfl
  rw [hsum, Double.toInt_truncate hq hfits]

/-- **Reading and writing back.**  Whatever can be read is written back in the
current version, with the same meaning bit for bit, and in a form that writing
back does not change any more. It is what was read exactly if that was
canonical. A whole-number aggregate of the old version keeps its truncated
sums, where they fit, as exact ones from then on. -/
theorem encode_decode_canonical (b : Text) (s : Snapshot Pattern) (h : decode b = .ok s) :
    s.encode.head? = some version ∧
    decode s.encode = .ok s ∧
    (∀ s' : Snapshot Pattern, decode s.encode = .ok s' → s'.encode = s.encode) ∧
    ∃ i : Image, i.WellFormed ∧ i.bytes = b ∧ i.snapshot = s ∧
      (s.encode = b ↔ i.IsCanonical) ∧
      (i.version = oldVersion → i.aggregate.kind = wholeKind →
        List.Forall₂ (fun c e => ∀ q, (Binary64.Value.ofBits c.sum.toNat).rational? = some q →
          Int64.InRange (Binary64.towardZero q) → e.toInt = Binary64.towardZero q)
          i.aggregate.columns s.aggregate.exact) := by
  obtain ⟨i, hi, rfl, rfl⟩ := (decode_eq_ok_iff b s).mp h
  have hagain := decode_encode (encodable_snapshot hi) (shaped_snapshot i)
  refine ⟨rfl, hagain, ?_, i, hi, rfl, rfl, ?_, exact_of_oldVersion hi⟩
  · intro s' hs'
    rw [hagain] at hs'
    cases hs'
    rfl
  · rw [encode_snapshot, ← i.canonical_eq_iff hi]
    exact ⟨Image.bytes_inj hi.canonical hi, congrArg Image.bytes⟩

/-- Whole numbers of the old version, with a sum of minus two and a half, and a
byte for rounding that is neither zero nor one. -/
def oldWholes : Image where
  version := oldVersion
  id := 5
  created := 1
  layout := [97]
  title := [98]
  sources := []
  aggregate := { kind := wholeKind, floor := 9, rows := 2,
                 columns := [⟨0xC004000000000000, 0, 0, 2, 0x7FF8000000000005, 0, none⟩] }

theorem encode_decode_oldWholes :
    ∃ s : Snapshot Pattern, decode oldWholes.bytes = .ok s ∧ s.encode ≠ oldWholes.bytes ∧
      decode s.encode = .ok s ∧ s.aggregate.exact = [-2] ∧
      s.aggregate.moments = [⟨2, ⟨0x7FF8000000000005⟩, ⟨0⟩⟩] := by
  have hi : oldWholes.WellFormed := by
    refine ⟨.inr rfl, by decide, by decide, by decide, by decide, by decide, ?_⟩
    simp [oldWholes, ColumnImage.Fits]
  have hread : decode oldWholes.bytes = .ok (oldWholes.snapshot : Snapshot Pattern) :=
    decode_bytes oldWholes hi
  obtain ⟨hversion, hagain, -, -⟩ := encode_decode_canonical _ _ hread
  refine ⟨_, hread, ?_, hagain, by decide, by decide⟩
  intro hsame
  rw [hsame] at hversion
  exact absurd hversion (by decide)

end PerfReport.Snapshot
