import PerfReport.Proofs.Word
import PerfReport.Snapshot.Decode

/-!
# What a decoder takes

`Parses d R` says that a decoder succeeds exactly on the bytes that begin
with a text `t` and gives exactly the values `a` with `R a t`, leaving the
rest. Success and its meaning are proved together, so that what is accepted
and what is refused come from one lemma a decoder:

* `Parses.bind`: decoders in sequence take texts in sequence;
* `Parses.reserve`: setting a table aside refuses nothing that could have
  been read;
* `parses_getMany`: a counted list is the texts of its items, one by one.
-/

namespace PerfReport.Snapshot

/-- `d` takes off the front exactly the texts that stand in `R` to its value. -/
def Parses {α : Type} (d : Decoder α) (R : α → Text → Prop) : Prop :=
  ∀ c a rest, (∃ c', d c = .ok a c' ∧ c'.rest = rest) ↔ ∃ t, R a t ∧ c.rest = t ++ rest

/-- `t` is what is written for some admissible `i`, and `a` what `i` means. -/
def Spells {ι α : Type} (ok : ι → Prop) (bytes : ι → Text) (value : ι → α) (a : α) (t : Text) :
    Prop :=
  ∃ i, ok i ∧ t = bytes i ∧ a = value i

variable {α β ι : Type} {d : Decoder α} {f : α → Decoder β} {R : α → Text → Prop}
  {ok : ι → Prop} {bytes : ι → Text} {value : ι → α}

theorem bind_run (d : Decoder α) (f : α → Decoder β) (c : Cursor) :
    (d >>= f) c = match d c with
      | .ok a c' => f a c'
      | .error e c' => .error e c' := by
  cases h : d c <;> simp [bind, EStateM.bind, h]

theorem Parses.congr {S : α → Text → Prop} (h : Parses d R) (hRS : ∀ a t, R a t ↔ S a t) :
    Parses d S := by
  intro c a rest
  rw [h c a rest]
  simp only [hRS]

theorem parses_pure (x : α) : Parses (pure x) fun a t => a = x ∧ t = [] := by
  intro c a rest
  constructor
  · rintro ⟨c', h, rfl⟩
    cases h
    exact ⟨[], ⟨rfl, rfl⟩, rfl⟩
  · rintro ⟨t, ⟨rfl, rfl⟩, h⟩
    exact ⟨c, rfl, h⟩

theorem parses_throw (e : SnapshotError) : Parses (throw e : Decoder α) fun _ _ => False := by
  intro c a rest
  constructor
  · rintro ⟨c', h, -⟩
    cases h
  · rintro ⟨t, h, -⟩
    exact h.elim

/-- **Sequences.**  The second decoder may depend on what the first has read. -/
theorem Parses.bind {S : ι → β → Text → Prop} (hd : Parses d (Spells ok bytes value))
    (hf : ∀ i, ok i → Parses (f (value i)) (S i)) :
    Parses (d >>= f) fun b t => ∃ i, ok i ∧ ∃ t', S i b t' ∧ t = bytes i ++ t' := by
  intro c b rest
  constructor
  · rintro ⟨c'', h, hc''⟩
    rw [bind_run] at h
    cases hr : d c with
    | error e c' => simp [hr] at h
    | ok a c' =>
      rw [hr] at h
      obtain ⟨_, ⟨i, hi, rfl, rfl⟩, hc⟩ := (hd c a c'.rest).mp ⟨c', hr, rfl⟩
      obtain ⟨t', hS, hc'⟩ := (hf i hi c' b rest).mp ⟨c'', h, hc''⟩
      refine ⟨bytes i ++ t', ⟨i, hi, t', hS, rfl⟩, ?_⟩
      rw [hc, hc', List.append_assoc]
  · rintro ⟨_, ⟨i, hi, t', hS, rfl⟩, hc⟩
    rw [List.append_assoc] at hc
    obtain ⟨c', hr, hc'⟩ := (hd c (value i) (t' ++ rest)).mpr ⟨_, ⟨i, hi, rfl, rfl⟩, hc⟩
    obtain ⟨c'', hr', hc''⟩ := (hf i hi c' b rest).mpr ⟨t', hS, hc'⟩
    refine ⟨c'', ?_, hc''⟩
    rw [bind_run, hr]
    exact hr'

theorem Parses.map (hd : Parses d (Spells ok bytes value)) (g : α → β) :
    Parses (do return g (← d)) (Spells ok bytes fun i => g (value i)) := by
  apply (hd.bind fun i _ => parses_pure (g (value i))).congr
  intro b t
  constructor
  · rintro ⟨i, hi, _, ⟨rfl, rfl⟩, rfl⟩
    exact ⟨i, hi, List.append_nil _, rfl⟩
  · rintro ⟨i, hi, rfl, rfl⟩
    exact ⟨i, hi, [], ⟨rfl, rfl⟩, (List.append_nil _).symm⟩

/-- What is expected is of no account to a read that succeeds. -/
theorem Parses.expect (hd : Parses d R) (due : List Nat) : Parses (do expect due; d) R :=
  fun c => hd { c with due := due }

/-- A table that is set aside for what is read next costs no input: whatever
`d` can read has room for it. -/
theorem Parses.reserve (hd : Parses d R) (count size : Nat)
    (hroom : ∀ a t, R a t → count * size ≤ t.length) :
    Parses (do reserve count size; d) R := by
  intro c a rest
  by_cases h : c.rest.length < count * size
  · have hrun : (do Snapshot.reserve count size; d) c = .error .truncated c := by
      simp [bind_run, Snapshot.reserve, h]
    constructor
    · rintro ⟨c', hc', _⟩
      rw [hrun] at hc'
      cases hc'
    · rintro ⟨t, hR, hc⟩
      have := hroom a t hR
      rw [hc, List.length_append] at h
      omega
  · have hrun : (do Snapshot.reserve count size; d) c =
        d { c with reserved := count :: c.reserved } := by
      simp [bind_run, Snapshot.reserve, h]
    rw [hrun]
    exact hd { c with reserved := count :: c.reserved } a rest

/-! ## Bytes and words -/

theorem splitBytes_eq_some (n : Nat) (t done taken rest : Text) :
    splitBytes n t done = some (taken, rest) ↔
      ∃ u, u.length = n ∧ t = u ++ rest ∧ taken = done.reverse ++ u := by
  induction n generalizing t done with
  | zero =>
    simp only [splitBytes, Option.some.injEq, Prod.mk.injEq]
    constructor
    · rintro ⟨rfl, rfl⟩
      exact ⟨[], rfl, rfl, (List.append_nil _).symm⟩
    · rintro ⟨u, hu, rfl, rfl⟩
      rw [List.length_eq_zero_iff] at hu
      subst hu
      exact ⟨(List.append_nil _).symm, rfl⟩
  | succ n ih =>
    cases t with
    | nil =>
      simp only [splitBytes, reduceCtorEq, false_iff]
      rintro ⟨u, hu, ht, _⟩
      cases u <;> simp at hu ht
    | cons b t =>
      rw [splitBytes, ih]
      constructor
      · rintro ⟨u, hu, rfl, rfl⟩
        exact ⟨b :: u, by simp [hu], rfl, by simp⟩
      · rintro ⟨u, hu, ht, rfl⟩
        cases u with
        | nil => simp at hu
        | cons b' u =>
          simp only [List.cons_append, List.cons.injEq] at ht
          obtain ⟨rfl, rfl⟩ := ht
          exact ⟨u, by simpa using hu, rfl, by simp⟩

theorem parses_takeBytes (n : Nat) :
    Parses (takeBytes n) (Spells (fun t => t.length = n) (fun t => t) fun t => t) := by
  intro c a rest
  unfold takeBytes
  constructor
  · rintro ⟨c', h, rfl⟩
    cases hs : splitBytes n c.rest [] with
    | none => simp [hs, cutOff] at h
    | some p =>
      obtain ⟨taken, left⟩ := p
      rw [hs] at h
      cases h
      obtain ⟨u, hu, hc, rfl⟩ := (splitBytes_eq_some n c.rest [] _ _).mp hs
      exact ⟨_, ⟨_, hu, rfl, rfl⟩, hc⟩
  · rintro ⟨_, ⟨t, hn, rfl, rfl⟩, hc⟩
    have hs : splitBytes n c.rest [] = some (a, rest) :=
      (splitBytes_eq_some n c.rest [] _ _).mpr ⟨a, hn, hc, rfl⟩
    exact ⟨{ c with rest := rest }, by simp [hs], rfl⟩

theorem parses_getByte :
    Parses getByte (Spells (fun _ => True) (fun b => [b]) fun b => b) := by
  intro c b rest
  unfold getByte
  cases hc : c.rest with
  | nil => simp [Spells, cutOff]
  | cons b' left =>
    constructor
    · rintro ⟨c', h, rfl⟩
      cases h
      exact ⟨[b], ⟨b, trivial, rfl, rfl⟩, rfl⟩
    · rintro ⟨_, ⟨_, -, rfl, rfl⟩, h⟩
      simp only [List.cons_append, List.nil_append, List.cons.injEq] at h
      obtain ⟨rfl, rfl⟩ := h
      exact ⟨{ c with rest := left }, rfl, rfl⟩

@[simp] theorem length_putU32 (n : Nat) : (putU32 n).length = 4 := Word.length_little 4 n

@[simp] theorem length_putU64 (w : UInt64) : (putU64 w).length = 8 := Word.length_little 8 w.toNat

theorem parses_getU32 :
    Parses getU32 (Spells (fun n => n < UInt32.size) putU32 fun n => n) := by
  apply ((parses_takeBytes 4).map Word.littleValue).congr
  intro n t
  constructor
  · rintro ⟨a, hl, rfl, rfl⟩
    have hlt := Word.littleValue_lt t
    rw [hl] at hlt
    refine ⟨_, hlt, ?_, rfl⟩
    rw [putU32, ← hl, Word.little_littleValue]
  · rintro ⟨_, hn, rfl, rfl⟩
    exact ⟨_, length_putU32 n, rfl, (Word.littleValue_little 4 n hn).symm⟩

theorem parses_getU64 : Parses getU64 (Spells (fun _ => True) putU64 fun w => w) := by
  apply ((parses_takeBytes 8).map fun t => UInt64.ofNat (Word.littleValue t)).congr
  intro w t
  constructor
  · rintro ⟨a, hl, rfl, rfl⟩
    have hlt : Word.littleValue t < UInt64.size := by
      have := Word.littleValue_lt t
      rwa [hl] at this
    refine ⟨_, trivial, ?_, rfl⟩
    rw [putU64, UInt64.toNat_ofNat_of_lt' hlt, ← hl, Word.little_littleValue]
  · rintro ⟨_, -, rfl, rfl⟩
    refine ⟨_, length_putU64 w, rfl, ?_⟩
    simp only
    rw [putU64, Word.littleValue_little 8 w.toNat w.toNat_lt, UInt64.ofNat_toNat]

theorem parses_getFloat [Carrier α] :
    Parses (getFloat : Decoder α) (Spells (fun _ => True) putU64 Carrier.ofBits) :=
  parses_getU64.map Carrier.ofBits

theorem parses_getText :
    Parses getText (Spells (fun a => a.length < UInt32.size) putText fun a => a) := by
  apply (parses_getU32.bind fun n _ => parses_takeBytes n).congr
  intro a t
  constructor
  · rintro ⟨n, hn, _, ⟨t, rfl, rfl, rfl⟩, rfl⟩
    exact ⟨a, hn, rfl, rfl⟩
  · rintro ⟨_, hn, rfl, rfl⟩
    exact ⟨a.length, hn, a, ⟨a, rfl, rfl, rfl⟩, rfl⟩

/-! ## Lists -/

/-- The induction is on the count, with the items before it in `done`. -/
theorem parses_getMany_onto (h : Parses d (Spells ok bytes value)) (n : Nat) (done : List α) :
    Parses (getMany d n done) (Spells (fun is => is.length = n ∧ ∀ i ∈ is, ok i)
      (List.flatMap bytes) fun is => done.reverse ++ is.map value) := by
  induction n generalizing done with
  | zero =>
    apply (parses_pure done.reverse).congr
    intro l t
    constructor
    · rintro ⟨rfl, rfl⟩
      exact ⟨[], by simp, rfl, by simp⟩
    · rintro ⟨is, ⟨hn, -⟩, rfl, rfl⟩
      rw [List.length_eq_zero_iff] at hn
      subst hn
      exact ⟨by simp, rfl⟩
  | succ n ih =>
    apply (h.bind fun i _ => ih (value i :: done)).congr
    intro l t
    constructor
    · rintro ⟨i, hi, _, ⟨is, ⟨hn, his⟩, rfl, rfl⟩, rfl⟩
      refine ⟨i :: is, ⟨by simp [hn], ?_⟩, rfl, by simp⟩
      intro j hj
      rcases List.mem_cons.mp hj with rfl | hj
      · exact hi
      · exact his j hj
    · rintro ⟨is, ⟨hn, his⟩, rfl, rfl⟩
      cases is with
      | nil => simp at hn
      | cons i is =>
        have htail : is.length = n ∧ ∀ j ∈ is, ok j :=
          ⟨by simpa using hn, fun j hj => his j (List.mem_cons_of_mem _ hj)⟩
        exact ⟨i, his i (List.mem_cons_self ..), is.flatMap bytes, ⟨is, htail, rfl, by simp⟩, rfl⟩

/-- **Counted lists.** -/
theorem parses_getMany (h : Parses d (Spells ok bytes value)) (n : Nat) :
    Parses (getMany d n []) (Spells (fun is => is.length = n ∧ ∀ i ∈ is, ok i)
      (List.flatMap bytes) (List.map value)) :=
  parses_getMany_onto h n []

/-! ## Staying inside the buffer -/

/-- Where a run ends, whatever came of it. -/
def ending : EStateM.Result SnapshotError Cursor α → Cursor
  | .ok _ c => c
  | .error _ c => c

/-- What `d` leaves is always a tail of what it was given, also when it
fails, so it never reaches behind the last byte. -/
def Stays (d : Decoder α) : Prop := ∀ c, (ending (d c)).rest <:+ c.rest

theorem stays_pure (x : α) : Stays (pure x) := fun c => List.suffix_refl c.rest

theorem stays_throw (e : SnapshotError) : Stays (throw e : Decoder α) :=
  fun c => List.suffix_refl c.rest

theorem Stays.bind (hd : Stays d) (hf : ∀ a, Stays (f a)) : Stays (d >>= f) := by
  intro c
  have hc := hd c
  rw [bind_run]
  cases hr : d c with
  | error e c' => rwa [hr] at hc
  | ok a c' =>
    rw [hr] at hc
    exact (hf a c').trans hc

theorem stays_expect (due : List Nat) : Stays (expect due) := fun c => List.suffix_refl c.rest

theorem stays_reserve (count size : Nat) : Stays (reserve count size) := by
  intro c
  unfold reserve
  split <;> exact List.suffix_refl c.rest

theorem stays_takeBytes (n : Nat) : Stays (takeBytes n) := by
  intro c
  unfold takeBytes
  cases hs : splitBytes n c.rest [] with
  | none => exact List.suffix_refl c.rest
  | some p =>
    obtain ⟨u, -, hc, -⟩ := (splitBytes_eq_some n c.rest [] p.1 p.2).mp hs
    exact ⟨u, hc.symm⟩

theorem stays_getByte : Stays getByte := by
  intro c
  unfold getByte
  cases hc : c.rest with
  | nil => simp [ending, cutOff, hc]
  | cons b t => exact List.suffix_cons b t

theorem stays_getU32 : Stays getU32 := (stays_takeBytes 4).bind fun _ => stays_pure _

theorem stays_getU64 : Stays getU64 := (stays_takeBytes 8).bind fun _ => stays_pure _

theorem stays_getFloat [Carrier α] : Stays (getFloat : Decoder α) :=
  stays_getU64.bind fun _ => stays_pure _

theorem stays_getText : Stays getText := stays_getU32.bind stays_takeBytes

theorem Stays.getMany (h : Stays d) (n : Nat) (done : List α) : Stays (getMany d n done) := by
  induction n generalizing done with
  | zero => exact stays_pure _
  | succ n ih => exact h.bind fun a => ih (a :: done)

end PerfReport.Snapshot
