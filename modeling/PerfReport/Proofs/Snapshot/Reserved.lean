import PerfReport.Proofs.Snapshot.Format

/-!
# Room set aside while reading

A count is checked against the bytes that are left before a table of that size
is set aside. A read that fails in between skips the check: the tables that are
due are then set aside for the counts as they were read.

* `Reads`: what a plain read does to the tables, whether it fails or not;
* `Within`, `Keeps`: no table is larger than the input, and that stays so;
* `run_shape`: the ten bytes between the number of columns and its check;
* `reserved_within_unless_cut`: the only inputs with too large a table are those
  that end within these ten bytes.
-/

namespace PerfReport.Snapshot

variable {α β : Type} {d : Decoder α} {f : α → Decoder β}

/-! ## Plain reads -/

/-- What a plain read does: it leaves the tables alone, or it is cut off and
sets those aside that are due. -/
def Reads (d : Decoder α) : Prop := ∀ c, match d c with
  | .ok _ c' => c'.reserved = c.reserved ∧ c'.due = c.due
  | .error _ c' => c'.reserved = c.due ++ c.reserved

theorem Reads.ok (h : Reads d) {c c' : Cursor} {a : α} (hr : d c = .ok a c') :
    c'.reserved = c.reserved ∧ c'.due = c.due := by
  have hc := h c
  rwa [hr] at hc

theorem Reads.error (h : Reads d) {c c' : Cursor} {e : SnapshotError} (hr : d c = .error e c') :
    c'.reserved = c.due ++ c.reserved := by
  have hc := h c
  rwa [hr] at hc

theorem reads_pure (x : α) : Reads (pure x) := fun _ => ⟨rfl, rfl⟩

theorem Reads.bind (hd : Reads d) (hf : ∀ a, Reads (f a)) : Reads (d >>= f) := by
  intro c
  rw [bind_run]
  cases hr : d c with
  | error e c' => exact hd.error hr
  | ok a c' =>
    obtain ⟨hreserved, hdue⟩ := hd.ok hr
    have hc := hf a c'
    rwa [hreserved, hdue] at hc

/-- A plain read of a known number of bytes. -/
def Takes (n : Nat) (d : Decoder α) : Prop := ∀ c,
  (c.rest.length < n ∧ ∃ rest, d c = .error .truncated ⟨rest, c.due ++ c.reserved, []⟩) ∨
    ∃ a rest, c.rest.length = n + rest.length ∧ d c = .ok a { c with rest := rest }

theorem Takes.reads {n : Nat} (h : Takes n d) : Reads d := by
  intro c
  rcases h c with ⟨-, rest, hr⟩ | ⟨a, rest, -, hr⟩
  · rw [hr]
  · rw [hr]
    exact ⟨rfl, rfl⟩

theorem takes_pure (x : α) : Takes 0 (pure x) :=
  fun c => .inr ⟨x, c.rest, (Nat.zero_add _).symm, rfl⟩

theorem Takes.bind {m n : Nat} (hd : Takes m d) (hf : ∀ a, Takes n (f a)) :
    Takes (m + n) (d >>= f) := by
  intro c
  simp only [bind_run]
  rcases hd c with ⟨hlen, rest, hr⟩ | ⟨a, rest, hlen, hr⟩
  · exact .inl ⟨by omega, rest, by rw [hr]⟩
  · rw [hr]
    rcases hf a { c with rest := rest } with ⟨hlen', h⟩ | ⟨x, rest', hlen', h⟩
    · exact .inl ⟨by simp only at hlen'; omega, h⟩
    · exact .inr ⟨x, rest', by simp only at hlen'; omega, h⟩

theorem takes_takeBytes (n : Nat) : Takes n (takeBytes n) := by
  intro c
  unfold takeBytes
  cases hs : splitBytes n c.rest [] with
  | none =>
    refine .inl ⟨Nat.lt_of_not_le fun hroom => ?_, c.rest, rfl⟩
    have hsplit := (splitBytes_eq_some n c.rest [] _ _).mpr
      ⟨c.rest.take n, List.length_take_of_le hroom, (List.take_append_drop n c.rest).symm, rfl⟩
    rw [hs] at hsplit
    cases hsplit
  | some p =>
    obtain ⟨u, hu, hc, -⟩ := (splitBytes_eq_some n c.rest [] p.1 p.2).mp hs
    exact .inr ⟨p.1, p.2, by rw [hc, List.length_append, hu], rfl⟩

theorem takes_getByte : Takes 1 getByte := by
  intro c
  unfold getByte
  cases hc : c.rest with
  | nil => exact .inl ⟨Nat.one_pos, c.rest, rfl⟩
  | cons b rest => exact .inr ⟨b, rest, Nat.add_comm .., rfl⟩

theorem takes_getU32 : Takes 4 getU32 := (takes_takeBytes 4).bind fun _ => takes_pure _

theorem takes_getU64 : Takes 8 getU64 := (takes_takeBytes 8).bind fun _ => takes_pure _

theorem reads_getText : Reads getText := takes_getU32.reads.bind fun n => (takes_takeBytes n).reads

theorem Reads.getMany (h : Reads d) (n : Nat) (done : List α) : Reads (getMany d n done) := by
  induction n generalizing done with
  | zero => exact reads_pure _
  | succ n ih => exact h.bind fun a => ih (a :: done)

theorem reads_getFloat [Carrier α] : Reads (getFloat : Decoder α) :=
  takes_getU64.reads.bind fun _ => reads_pure _

theorem reads_getExact [Carrier α] (v : UInt8) (sum : α) : Reads (getExact v sum) := by
  unfold getExact
  split
  · exact reads_pure _
  · exact takes_getU64.reads.bind fun _ => reads_pure _

theorem reads_getColumn [Carrier α] (v : UInt8) : Reads (getColumn v : Decoder (ColumnState α)) :=
  reads_getFloat.bind fun sum => reads_getFloat.bind fun _ => reads_getFloat.bind fun _ =>
    takes_getU64.reads.bind fun _ => reads_getFloat.bind fun _ => reads_getFloat.bind fun _ =>
      (reads_getExact v sum).bind fun _ => reads_pure _

/-! ## Tables within the input -/

/-- What is left and all tables, those that are due included, are no larger
than the input. -/
structure Within (size : Nat) (c : Cursor) : Prop where
  rest : c.rest.length ≤ size
  reserved : ∀ n ∈ c.reserved, n ≤ size
  due : ∀ n ∈ c.due, n ≤ size

/-- Tables within the input stay so. After a failure nothing is due. -/
def Keeps (size : Nat) (d : Decoder α) : Prop := ∀ c, Within size c → match d c with
  | .ok _ c' => Within size c'
  | .error _ c' => ∀ n ∈ c'.reserved, n ≤ size

variable {size : Nat}

theorem Reads.keeps (h : Reads d) (hs : Stays d) : Keeps size d := by
  intro c hc
  have hrest := hs c
  cases hr : d c with
  | ok a c' =>
    obtain ⟨hreserved, hdue⟩ := h.ok hr
    rw [hr] at hrest
    exact ⟨Nat.le_trans hrest.length_le hc.rest, hreserved ▸ hc.reserved, hdue ▸ hc.due⟩
  | error e c' =>
    simp only [h.error hr]
    exact List.forall_mem_append.mpr ⟨hc.due, hc.reserved⟩

theorem Keeps.ending (h : Keeps size d) {c : Cursor} (hc : Within size c) :
    ∀ n ∈ (Snapshot.ending (d c)).reserved, n ≤ size := by
  have hrun := h c hc
  cases hr : d c with
  | ok a c' =>
    rw [hr] at hrun
    exact hrun.reserved
  | error e c' =>
    rw [hr] at hrun
    exact hrun

theorem keeps_pure (x : α) : Keeps size (pure x) := fun _ hc => hc

theorem keeps_throw (e : SnapshotError) : Keeps size (throw e : Decoder α) :=
  fun _ hc => hc.reserved

theorem Keeps.bind (hd : Keeps size d) (hf : ∀ a, Keeps size (f a)) : Keeps size (d >>= f) := by
  intro c hc
  have hfirst := hd c hc
  rw [bind_run]
  cases hr : d c with
  | error e c' => rwa [hr] at hfirst
  | ok a c' =>
    rw [hr] at hfirst
    exact hf a c' hfirst

theorem keeps_expect {due : List Nat} (h : ∀ n ∈ due, n ≤ size) : Keeps size (expect due) :=
  fun _ hc => ⟨hc.rest, hc.reserved, h⟩

/-- The check before a table. -/
theorem keeps_reserve (count : Nat) {item : Nat} (h : 0 < item) :
    Keeps size (reserve count item) := by
  intro c hc
  by_cases hroom : c.rest.length < count * item
  · have hrun : reserve count item c = .error .truncated c := if_pos hroom
    rw [hrun]
    exact hc.reserved
  · have hrun : reserve count item c = .ok () { c with reserved := count :: c.reserved } :=
      if_neg hroom
    have hcount : count ≤ count * item := Nat.le_mul_of_pos_right count h
    have hrest := hc.rest
    rw [hrun]
    exact ⟨hrest, List.forall_mem_cons.mpr ⟨by omega, hc.reserved⟩, hc.due⟩

theorem keeps_getVersion : Keeps size getVersion :=
  (takes_getByte.reads.keeps stays_getByte).bind fun v => by
    split
    · exact keeps_pure v
    · exact keeps_throw _

theorem keeps_getU32 : Keeps size getU32 := takes_getU32.reads.keeps stays_getU32

theorem keeps_getU64 : Keeps size getU64 := takes_getU64.reads.keeps stays_getU64

theorem keeps_getText : Keeps size getText := reads_getText.keeps stays_getText

theorem keeps_getHeading : Keeps size getHeading :=
  (keeps_expect (by simp)).bind fun _ => keeps_getVersion.bind fun _ =>
    keeps_getU64.bind fun _ => keeps_getU64.bind fun _ => keeps_getText.bind fun _ =>
      keeps_getText.bind fun _ => keeps_getU32.bind fun count =>
        (keeps_reserve count Nat.one_pos).bind fun _ => (keeps_expect (by simp)).bind fun _ =>
          ((reads_getText.getMany count []).keeps (stays_getText.getMany count [])).bind
            fun _ => keeps_pure _

/-! ## Between the number of columns and its check -/

/-- The kind, the byte for rounding and the number of rows. -/
def getShape : Decoder (UInt8 × UInt8 × UInt64) := do
  let kind ← getByte
  let floor ← getByte
  let rows ← getU64
  return (kind, floor, rows)

theorem takes_getShape : Takes 10 getShape :=
  takes_getByte.bind fun _ => takes_getByte.bind fun _ => takes_getU64.bind fun _ => takes_pure _

/-- The columns, with the check before them. -/
def getColumns [Carrier α] (v : UInt8) (arity : Nat) (shape : UInt8 × UInt8 × UInt64) :
    Decoder (Aggregate α) := do
  reserve arity (columnSize v)
  expect []
  let states ← getMany (getColumn v) arity []
  return .restore ⟨shape.1.toNat⟩ (shape.2.1 == 1) shape.2.2 states

theorem getAggregate_eq [Carrier α] (v : UInt8) : (getAggregate v : Decoder (Aggregate α)) = (do
    let arity ← getU32
    expect [arity]
    let shape ← getShape
    getColumns v arity shape) := by
  simp [getAggregate, getShape, getColumns]

theorem columnSize_pos (v : UInt8) : 0 < columnSize v := by
  unfold columnSize
  split <;> decide

theorem keeps_getColumns [Carrier α] (v : UInt8) (arity : Nat) (shape : UInt8 × UInt8 × UInt64) :
    Keeps size (getColumns v arity shape : Decoder (Aggregate α)) :=
  (keeps_reserve arity (columnSize_pos v)).bind fun _ => (keeps_expect (by simp)).bind fun _ =>
    (((reads_getColumn v).getMany arity []).keeps ((stays_getColumn v).getMany arity [])).bind
      fun _ => keeps_pure _

/-- More columns than there are bytes left do not pass the check. -/
theorem getColumns_refused [Carrier α] (v : UInt8) {arity : Nat} {c : Cursor}
    (h : c.rest.length < arity) (shape : UInt8 × UInt8 × UInt64) :
    (getColumns v arity shape : Decoder (Aggregate α)) c = .error .truncated c := by
  have hmul : arity ≤ arity * columnSize v := Nat.le_mul_of_pos_right arity (columnSize_pos v)
  have hrun : reserve arity (columnSize v) c = .error .truncated c :=
    if_pos (Nat.lt_of_lt_of_le h hmul)
  rw [getColumns, bind_run, hrun]

/-- Tables of an aggregate that are too large are those of a number of columns
with fewer than ten bytes behind it. -/
theorem reserved_getAggregate [Carrier α] (v : UInt8) {c : Cursor} (hc : Within size c) :
    ∀ n ∈ (ending ((getAggregate v : Decoder (Aggregate α)) c)).reserved, n ≤ size ∨
      n < UInt32.size ∧ ∃ t, t.length < 10 ∧ c.rest = putU32 n ++ t := by
  have harity := keeps_getU32 c hc
  rw [getAggregate_eq, bind_run]
  cases hr : getU32 c with
  | error e c' =>
    rw [hr] at harity
    exact fun n hn => .inl (harity n hn)
  | ok arity c' =>
    rw [hr] at harity
    obtain ⟨_, ⟨_, hfits, rfl, rfl⟩, hrest⟩ := (parses_getU32 c arity c'.rest).mp ⟨c', hr, rfl⟩
    simp only [bind_run]
    rcases takes_getShape { c' with due := [arity] } with ⟨hshort, rest, h⟩ | ⟨shape, rest, hlen, h⟩
    · intro n hn
      simp only [expect, h] at hn
      rcases List.mem_cons.mp hn with rfl | hn
      · exact .inr ⟨hfits, c'.rest, hshort, hrest⟩
      · exact .inl (harity.reserved n hn)
    · simp only [expect, h]
      simp only at hlen
      have hleft := harity.rest
      by_cases hroom : arity ≤ size
      · have hdue : Within size { c' with rest := rest, due := [arity] } :=
          ⟨by simp only; omega, harity.reserved, by simpa using hroom⟩
        exact fun n hn => .inl ((keeps_getColumns v arity shape).ending hdue n hn)
      · rw [getColumns_refused v (by simp only; omega)]
        exact fun n hn => .inl (harity.reserved n hn)

/-! ## The input as a whole -/

/-- The sizes of the tables that reading sets aside, whatever comes of it. -/
def reservedBy (b : Text) : List Nat := (ending (getSnapshot { rest := b })).reserved

/-- The input ends within the ten bytes behind the number of columns. -/
def CutBehindArity (b : Text) (n : Nat) : Prop :=
  ∃ (h : Heading) (t : Text), h.Fits ∧ n < UInt32.size ∧ t.length < 10 ∧
    b = h.bytes ++ putU32 n ++ t

theorem ending_bind_pure (d : Decoder α) (g : α → β) (c : Cursor) :
    ending ((do return g (← d)) c) = ending (d c) := by
  rw [bind_run]
  cases hr : d c <;> rfl

/-- The tables are within the input, those of a cut number of columns apart. -/
theorem reserved_le_or_cut (b : Text) :
    ∀ n ∈ reservedBy b, n ≤ b.length ∨ CutBehindArity b n := by
  have hstart : Within b.length { rest := b } := ⟨Nat.le_refl _, by simp, by simp⟩
  have hheading := keeps_getHeading _ hstart
  intro n hn
  rw [reservedBy, getSnapshot, bind_run] at hn
  cases hr : getHeading { rest := b } with
  | error e c =>
    rw [hr] at hheading hn
    exact .inl (hheading n hn)
  | ok h c =>
    rw [hr] at hheading hn
    obtain ⟨_, ⟨_, hfits, rfl, rfl⟩, hrest⟩ := (parses_getHeading _ h c.rest).mp ⟨c, hr, rfl⟩
    simp only [ending_bind_pure] at hn
    rcases reserved_getAggregate h.version hheading n hn with hle | ⟨hsize, t, ht, hc⟩
    · exact .inl hle
    · refine .inr ⟨h, t, hfits, hsize, ht, ?_⟩
      rw [List.append_assoc, ← hc]
      exact hrest

/-- A cut number of columns is what the tables are set aside for. -/
theorem reserved_of_cut {b : Text} {n : Nat} (h : CutBehindArity b n) :
    n ∈ reservedBy b ∧ decode b = .error .truncated := by
  obtain ⟨h, t, hfits, hn, ht, rfl⟩ := h
  obtain ⟨c, hc, hrest⟩ := (parses_getHeading { rest := h.bytes ++ putU32 n ++ t } h
    (putU32 n ++ t)).mpr ⟨_, ⟨h, hfits, rfl, rfl⟩, List.append_assoc ..⟩
  obtain ⟨c', hc', hrest'⟩ := (parses_getU32 c n t).mpr ⟨_, ⟨n, hn, rfl, rfl⟩, hrest⟩
  have hrun : ∃ rest, (getSnapshot : Decoder Snapshot) { rest := h.bytes ++ putU32 n ++ t } =
      .error .truncated ⟨rest, n :: c'.reserved, []⟩ := by
    rcases takes_getShape { c' with due := [n] } with ⟨-, rest, hshape⟩ | ⟨shape, rest, hlen, -⟩
    · refine ⟨rest, ?_⟩
      rw [getSnapshot, bind_run, hc]
      simp only [getAggregate_eq, bind_run, hc', expect, hshape]
      rfl
    · rw [hrest'] at hlen
      omega
  obtain ⟨rest, hrun⟩ := hrun
  refine ⟨?_, ?_⟩
  · rw [reservedBy, hrun]
    exact List.mem_cons_self ..
  · rw [decode_run, hrun]

/-- **Room for what is read.**  Of the tables that reading sets aside, whether
it succeeds or fails, none has more items than the input has bytes, but for one
case: an input that ends within the ten bytes behind the number of columns is
refused as cut off, but only after tables of that number have been set aside,
however large it is. -/
theorem reserved_within_unless_cut (b : Text) :
    (∀ n ∈ reservedBy b, n ≤ b.length ∨ CutBehindArity b n) ∧
    ∀ n, CutBehindArity b n → n ∈ reservedBy b ∧ decode b = .error .truncated :=
  ⟨reserved_le_or_cut b, fun _ => reserved_of_cut⟩

/-- No texts, no sources. -/
def bareHeading : Heading := ⟨version, 0, 0, [], [], []⟩

/-- An input that ends right behind a number of columns. -/
def cutText : Text := bareHeading.bytes ++ putU32 65536

theorem reserved_cutText : 65536 ∈ reservedBy cutText ∧ decode cutText = .error .truncated := by
  have hfits : bareHeading.Fits := by
    refine ⟨.inl rfl, by decide, by decide, by decide, ?_⟩
    simp [bareHeading]
  have hcut : CutBehindArity cutText 65536 :=
    ⟨bareHeading, [], hfits, by decide, by decide, (List.append_nil _).symm⟩
  exact (reserved_within_unless_cut cutText).2 65536 hcut

/-- Fewer than forty bytes have a table of 65536 items set aside. -/
theorem reserved_beyond_input : ¬ ∀ b : Text, ∀ n ∈ reservedBy b, n ≤ b.length := by
  intro h
  have hle := h cutText 65536 (by decide)
  exact absurd hle (by decide)

end PerfReport.Snapshot
