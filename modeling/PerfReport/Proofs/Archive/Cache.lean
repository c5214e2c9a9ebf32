import PerfReport.Proofs.Archive.Refinement

/-!
# The cache cannot be noticed

A cache may forget anything at any time, and may still serve what was deleted.
An archive with such a cache answers like one without, as long as the store is
written through archives only: what the cache knows about an id is what the
store holds under it, or the id was deleted and is never looked up again.

* `answer`, `answers`: one request, and a sequence of them;
* `answer_effect`: what a request does to the table of the store;
* `Filled.numbered`: no run is stored above the last id that was drawn;
* `Coherent`: what the cache and the deleted ids have to do with the table;
* `Faithful.answer`: one request keeps this, and is answered as without a cache;
* `cached_answers_eq_uncached`: every sequence of requests.
-/

namespace PerfReport

/-- Whether an id is drawn. -/
def Request.draws : Request → Bool
  | .save _ | .nextId => true
  | _ => false

namespace Archive

variable {σ : Type} [RunStore σ]

/-- An archive that was just opened. -/
def onStore (cached : Bool) (store : σ) : Archive σ where
  store := store
  cached := cached

/-- What is answered to a request if the cache serves by this policy. -/
def answer (policy : CachePolicy) (a : Archive σ) : Request → Event × Archive σ
  | .save s => (.saved s (a.save s).1, (a.save s).2)
  | .get id => (.got id (a.get policy id).1, (a.get policy id).2)
  | .delete id => (.deleted id (a.delete id).1, (a.delete id).2)
  | .list => (.listed (a.list policy).1, (a.list policy).2)
  | .nextId =>
    match RunStore.nextId a.store with
    | .ok (id, store) => (.drew (.ok id), { a with store := store })
    | .error e => (.drew (.error (.store e)), a)
  | .reopen => (.reopened, a.reopen)

/-- The answers to requests in order. The policy may be another one for each
of them: what the cache still holds changes with time. -/
def answers (a : Archive σ) : List (CachePolicy × Request) → List Event
  | [] => []
  | (policy, r) :: steps => (a.answer policy r).1 :: (a.answer policy r).2.answers steps

/-- How many ids are drawn. -/
def drawCount (steps : List (CachePolicy × Request)) : Nat := steps.countP fun step => step.2.draws

theorem drawCount_cons (step : CachePolicy × Request) (steps : List (CachePolicy × Request)) :
    drawCount (step :: steps) = step.2.draws.toNat + drawCount steps := by
  cases hd : step.2.draws <;> simp [drawCount, hd, Nat.add_comm]

/-! ## The store -/

omit [RunStore σ] in
theorem remember_store (a : Archive σ) (id : UInt64) (s : Snapshot) :
    (a.remember id s).store = a.store := by
  unfold remember
  split <;> rfl

theorem get_store (policy : CachePolicy) (a : Archive σ) (id : UInt64) :
    (a.get policy id).2.store = a.store := by
  unfold Archive.get
  split
  · rfl
  · split
    · rfl
    · split
      · exact remember_store a id _
      · rfl

theorem getAll_store (policy : CachePolicy) (a : Archive σ) (done : List Snapshot)
    (ids : List UInt64) : (getAll policy a done ids).2.store = a.store := by
  induction ids generalizing a done with
  | nil => rfl
  | cons id ids ih =>
    rw [getAll]
    have hget := get_store policy a id
    split
    · next s a' ha =>
      rw [ha] at hget
      rw [ih, hget]
    · next e a' ha =>
      rw [ha] at hget
      exact hget

theorem list_store (policy : CachePolicy) (a : Archive σ) : (a.list policy).2.store = a.store := by
  unfold Archive.list
  split
  · exact getAll_store policy a [] _
  · rfl

variable [LawfulRunStore σ] {d : Bool} {a : Archive σ}

theorem save_of_valid (h : LawfulRunStore.Valid d a.store) (s : Snapshot) :
    ∃ store, a.save s = (.ok ((LawfulRunStore.table a.store).last + 1),
        { a with store := store }.remember ((LawfulRunStore.table a.store).last + 1)
          { s with id := (LawfulRunStore.table a.store).last + 1 }) ∧
      LawfulRunStore.Valid d store ∧
      LawfulRunStore.table store = (LawfulRunStore.table a.store).draw.put
        ((LawfulRunStore.table a.store).last + 1)
        { s with id := (LawfulRunStore.table a.store).last + 1 }.encode := by
  obtain ⟨store, hnext, hvalid, htable⟩ := LawfulRunStore.nextId_eq h
  obtain ⟨store', hput, hvalid', htable'⟩ := LawfulRunStore.put_eq hvalid
    ((LawfulRunStore.table a.store).last + 1)
    { s with id := (LawfulRunStore.table a.store).last + 1 }.encode
  refine ⟨store', ?_, hvalid', by rw [htable', htable]⟩
  simp only [Archive.save, hnext, hput]

/-- **Requests.**  With or without a cache, a request has one of the effects
on the table that are possible without failures. -/
theorem answer_effect (h : LawfulRunStore.Valid d a.store) (policy : CachePolicy) {r : Request}
    (hr : r = .reopen → d = true) :
    LawfulRunStore.Valid d (a.answer policy r).2.store ∧
      Effect r.draws (LawfulRunStore.table a.store) (a.answer policy r).1
        (LawfulRunStore.table (a.answer policy r).2.store) := by
  cases r with
  | save s =>
    obtain ⟨store, hsave, hvalid, htable⟩ := save_of_valid h s
    simp only [answer, hsave, remember_store]
    exact ⟨hvalid, (Effect.saved _ s).of_eq htable⟩
  | get id =>
    simp only [answer, get_store]
    exact ⟨h, .got _ id _⟩
  | delete id =>
    by_cases hrun : (LawfulRunStore.table a.store).run? id = none
    · simp only [answer, Archive.delete, LawfulRunStore.delete_absent h id hrun]
      exact ⟨h, .notDeleted _ id _⟩
    · obtain ⟨store, hdelete, hvalid, htable⟩ := LawfulRunStore.delete_eq h id hrun
      simp only [answer, Archive.delete, hdelete]
      exact ⟨hvalid, (Effect.deleted _ id hrun).of_eq htable⟩
  | list =>
    simp only [answer, list_store]
    exact ⟨h, .listed _ _⟩
  | nextId =>
    obtain ⟨store, hnext, hvalid, htable⟩ := LawfulRunStore.nextId_eq h
    simp only [answer, hnext]
    exact ⟨hvalid, (Effect.drew _).of_eq htable⟩
  | reopen =>
    obtain rfl := hr rfl
    obtain ⟨hvalid, htable⟩ := LawfulRunStore.reopen_eq h
    exact ⟨hvalid, (Effect.reopened _).of_eq htable⟩

/-- A store that was empty once and was then used through archives only,
whatever their caches held; `drawn` ids were drawn from it. -/
inductive Filled (d : Bool) : (drawn : Nat) → σ → Prop
  | empty {store : σ} : LawfulRunStore.Valid d store → LawfulRunStore.table store = .empty →
      Filled d 0 store
  | answer {n : Nat} {a : Archive σ} (policy : CachePolicy) {r : Request} : Filled d n a.store →
      (r = .reopen → d = true) → Filled d (n + r.draws.toNat) (a.answer policy r).2.store

end Archive

/-! ## Ids -/

/-- The counter stands at `n`, and no run is stored above it. -/
structure RunTable.Numbered (n : Nat) (t : RunTable) : Prop where
  last : t.last.toNat = n
  bounded : ∀ id, t.run? id ≠ none → id.toNat ≤ n

namespace RunTable

variable {n : Nat} {drawn : Bool} {t t' : RunTable} {e : Event}

theorem Numbered.next (h : t.Numbered n) (hn : n + 1 < UInt64.size) :
    (t.last + 1).toNat = n + 1 := by
  have hnext : (t.last + 1).toNat = (t.last.toNat + 1) % UInt64.size := UInt64.toNat_add ..
  rw [hnext, h.last]
  exact Nat.mod_eq_of_lt hn

theorem Numbered.effect (h : t.Numbered n) (he : Effect drawn t e t')
    (hn : n + drawn.toNat < UInt64.size) : t'.Numbered (n + drawn.toNat) := by
  constructor
  · rw [he.last_eq]
    cases drawn with
    | false => exact h.last
    | true => exact h.next hn
  · intro id hid
    rcases he.run?_cases with ⟨s, rfl, hrun⟩ | ⟨k, rfl, -, hrun⟩ | ⟨-, -, hrun⟩
    · have hdrawn := (he.handedOut_eq rfl).1
      subst hdrawn
      by_cases hk : id = t.last + 1
      · rw [hk, h.next hn]
        rfl
      · rw [hrun] at hid
        exact Nat.le_add_right_of_le (h.bounded id fun hnone => hid ((if_neg hk).trans hnone))
    · rw [hrun] at hid
      have hk : id ≠ k := fun hk => hid (if_pos hk)
      exact Nat.le_add_right_of_le (h.bounded id fun hnone => hid ((if_neg hk).trans hnone))
    · rw [hrun] at hid
      exact Nat.le_add_right_of_le (h.bounded id hid)

/-- The snapshot that is stored under an id. -/
def read (t : RunTable) (id : UInt64) : Except Error Snapshot := do
  let bytes ← (t.get id).mapError Error.store
  (Snapshot.decode bytes).mapError Error.snapshot

theorem read_congr {id : UInt64} (h : t'.run? id = t.run? id) : t'.read id = t.read id := by
  rw [read, read, get, get, h]

theorem read_of_run? {id : UInt64} {s : Snapshot} (hrun : t.run? id = some s.encode)
    (hs : Snapshot.decode s.encode = .ok s) : t.read id = .ok s := by
  rw [read, get, hrun]
  show (Snapshot.decode s.encode).mapError Error.snapshot = .ok s
  rw [hs]
  rfl

theorem read_of_absent {id : UInt64} (hrun : t.run? id = none) :
    t.read id = .error (.store .notFound) := by
  rw [read, get, hrun]
  rfl

end RunTable

theorem Archive.Filled.numbered {σ : Type} [RunStore σ] [LawfulRunStore σ] {d : Bool} {n : Nat}
    {store : σ} (h : Filled d n store) (hn : n < UInt64.size) :
    LawfulRunStore.Valid d store ∧ (LawfulRunStore.table store).Numbered n := by
  induction h with
  | empty hvalid hempty =>
    rw [hempty]
    exact ⟨hvalid, rfl, fun id hid => absurd rfl hid⟩
  | answer policy _ hr ih =>
    obtain ⟨hvalid, hnumbered⟩ := ih (by omega)
    obtain ⟨hvalid', heffect⟩ := answer_effect hvalid policy hr
    exact ⟨hvalid', hnumbered.effect heffect hn⟩

/-! ## What the cache knows -/

/-- What was ever set in the cache is what the table holds, unless the id was
deleted; and a deleted id is in use no more. -/
structure Coherent (n : Nat) (t : RunTable) (entries : List (UInt64 × Snapshot))
    (deleted : List UInt64) : Prop where
  known : ∀ id s, (id, s) ∈ entries → id.toNat ≤ n ∧ (id ∉ deleted → t.read id = .ok s)
  gone : ∀ id ∈ deleted, id.toNat ≤ n ∧ t.run? id = none

namespace Coherent

variable {n n' : Nat} {t t' : RunTable} {entries : List (UInt64 × Snapshot)} {deleted : List UInt64}

theorem nil (n : Nat) (t : RunTable) : Coherent n t [] [] := ⟨nofun, nofun⟩

/-- Runs above those that the cache may know about do not matter to it. -/
theorem extend (h : Coherent n t entries deleted) (hn : n ≤ n')
    (hrun : ∀ id : UInt64, id.toNat ≤ n → t'.run? id = t.run? id) :
    Coherent n' t' entries deleted := by
  constructor
  · intro id s hmem
    obtain ⟨hid, hread⟩ := h.known id s hmem
    refine ⟨Nat.le_trans hid hn, fun hdel => ?_⟩
    rw [RunTable.read_congr (hrun id hid)]
    exact hread hdel
  · intro id hdel
    obtain ⟨hid, hnone⟩ := h.gone id hdel
    exact ⟨Nat.le_trans hid hn, (hrun id hid).trans hnone⟩

theorem remember (h : Coherent n t entries deleted) {id : UInt64} {s : Snapshot}
    (hid : id.toNat ≤ n) (hread : t.read id = .ok s) :
    Coherent n t ((id, s) :: entries) deleted := by
  refine ⟨fun k u hmem => ?_, h.gone⟩
  rcases List.mem_cons.mp hmem with heq | hmem
  · cases heq
    exact ⟨hid, fun _ => hread⟩
  · exact h.known k u hmem

/-- Whatever the cache knows about a deleted run is of no use any more. -/
theorem bury (h : Coherent n t entries deleted) {id : UInt64} (hid : id.toNat ≤ n) :
    Coherent n (t.drop id) entries (id :: deleted) := by
  have hother {k : UInt64} (hk : k ≠ id) : (t.drop id).run? k = t.run? k := if_neg hk
  constructor
  · intro k s hmem
    obtain ⟨hk, hread⟩ := h.known k s hmem
    refine ⟨hk, fun hdel => ?_⟩
    rw [List.mem_cons, not_or] at hdel
    rw [RunTable.read_congr (hother hdel.1)]
    exact hread hdel.2
  · intro k hdel
    rcases List.mem_cons.mp hdel with rfl | hdel
    · exact ⟨hid, if_pos rfl⟩
    · obtain ⟨hk, hnone⟩ := h.gone k hdel
      by_cases hkid : k = id
      · exact ⟨hk, if_pos hkid⟩
      · exact ⟨hk, (hother hkid).trans hnone⟩

end Coherent

/-! ## Answers -/

namespace Archive

theorem mem_entries_of_hit {σ : Type} {a : Archive σ} {policy : CachePolicy} {id : UInt64}
    {s : Snapshot} (h : a.cacheHit policy id = some s) : (id, s) ∈ a.entries := by
  unfold cacheHit at h
  split at h
  · have hmem := policy.served id _ s h
    simp only [remembered, List.mem_map, List.mem_filter, beq_iff_eq] at hmem
    obtain ⟨⟨k, u⟩, ⟨hentry, hk⟩, hu⟩ := hmem
    cases hk
    cases hu
    exact hentry
  · cases h

section Uncached

variable {σ : Type} [RunStore σ]

/-- Without a cache every snapshot is fetched. -/
theorem get_onStore (policy : CachePolicy) (a : Archive σ) (id : UInt64) :
    (onStore false a.store).get policy id = (a.fetch id, onStore false a.store) := by
  have hdeleted : ¬ ((onStore false a.store).cached = true ∧
      id ∈ (onStore false a.store).deleted) := by
    simp [onStore]
  have hhit : (onStore false a.store).cacheHit policy id = none := if_neg (by simp [onStore])
  have hfetch : (onStore false a.store).fetch id = a.fetch id := rfl
  rw [Archive.get, if_neg hdeleted, hhit, hfetch]
  cases hf : a.fetch id with
  | ok s => simp [remember, onStore]
  | error e => rfl

theorem save_onStore (a : Archive σ) (s : Snapshot) :
    (onStore false a.store).save s = ((a.save s).1, onStore false (a.save s).2.store) := by
  unfold Archive.save
  cases hnext : RunStore.nextId a.store with
  | error e => simp [onStore, hnext]
  | ok r =>
    cases hput : RunStore.put r.2 r.1 { s with id := r.1 }.encode with
    | error e => simp [onStore, hnext, hput]
    | ok store =>
      simp only [onStore, hnext, hput, remember_store]
      rfl

theorem delete_onStore (a : Archive σ) (id : UInt64) :
    (onStore false a.store).delete id = ((a.delete id).1, onStore false (a.delete id).2.store) := by
  unfold Archive.delete
  cases hdelete : RunStore.delete a.store id <;> simp [onStore, hdelete]

end Uncached

variable {σ : Type} [RunStore σ] [LawfulRunStore σ] {d : Bool} {n : Nat} {a : Archive σ}

/-- An archive with a cache that does not contradict its store. -/
structure Faithful (d : Bool) (n : Nat) (a : Archive σ) : Prop where
  cached : a.cached = true
  valid : LawfulRunStore.Valid d a.store
  numbered : (LawfulRunStore.table a.store).Numbered n
  coherent : Coherent n (LawfulRunStore.table a.store) a.entries a.deleted

theorem fetch_eq_read (h : LawfulRunStore.Valid d a.store) (id : UInt64) :
    a.fetch id = (LawfulRunStore.table a.store).read id := by
  rw [fetch, LawfulRunStore.get_eq h id, RunTable.read]

/-- What is fetched may be remembered. -/
theorem Faithful.remember (h : a.Faithful d n) {id : UInt64} {s : Snapshot}
    (hf : a.fetch id = .ok s) : (a.remember id s).Faithful d n := by
  have hread : (LawfulRunStore.table a.store).read id = .ok s := by
    rw [← fetch_eq_read h.valid, hf]
  have hid : id.toNat ≤ n := by
    apply h.numbered.bounded
    intro hnone
    rw [RunTable.read_of_absent hnone] at hread
    cases hread
  rw [Archive.remember, if_pos h.cached]
  exact ⟨h.cached, h.valid, h.numbered, h.coherent.remember hid hread⟩

/-- A deleted id is not found, a hit is what would be fetched, and a miss is
fetched. -/
theorem Faithful.get (h : a.Faithful d n) (policy : CachePolicy) (id : UInt64) :
    (a.get policy id).1 = a.fetch id ∧ (a.get policy id).2.Faithful d n := by
  unfold Archive.get
  split
  · next hdel =>
    have hnone := (h.coherent.gone id hdel.2).2
    rw [fetch_eq_read h.valid, RunTable.read_of_absent hnone]
    exact ⟨rfl, h⟩
  · next hdel =>
    have hdel : id ∉ a.deleted := fun hmem => hdel ⟨h.cached, hmem⟩
    split
    · next s hhit =>
      have hread := (h.coherent.known id s (mem_entries_of_hit hhit)).2 hdel
      rw [fetch_eq_read h.valid, hread]
      exact ⟨rfl, h⟩
    · split
      · next s hf => exact ⟨hf.symm, h.remember hf⟩
      · next e hf => exact ⟨hf.symm, h⟩

/-- The induction is on the ids still to be looked up. The cache may change on
the way; the store, and with it the archive without a cache, does not. -/
theorem Faithful.getAll (h : a.Faithful d n) (policy : CachePolicy) (done : List Snapshot)
    (ids : List UInt64) :
    getAll policy (onStore false a.store) done ids =
        ((getAll policy a done ids).1, onStore false a.store) ∧
      (getAll policy a done ids).2.Faithful d n := by
  induction ids generalizing a done with
  | nil => exact ⟨rfl, h⟩
  | cons id ids ih =>
    obtain ⟨hanswer, hnext⟩ := h.get policy id
    have hstore := get_store policy a id
    rw [Archive.getAll, Archive.getAll, get_onStore, ← hanswer]
    rcases hget : a.get policy id with ⟨r, a'⟩
    rw [hget] at hnext hstore
    cases r with
    | ok s =>
      have hrest := ih hnext (s :: done)
      rw [hstore] at hrest
      exact hrest
    | error e => exact ⟨rfl, hnext⟩

theorem Faithful.list (h : a.Faithful d n) (policy : CachePolicy) :
    (onStore false a.store).list policy = ((a.list policy).1, onStore false a.store) ∧
      (a.list policy).2.Faithful d n := by
  obtain ⟨ids, hindex, -, -⟩ := LawfulRunStore.index_eq h.valid
  have hindex' : RunStore.index (onStore false a.store).store = .ok ids := hindex
  simp only [Archive.list, hindex, hindex']
  exact h.getAll policy [] ids

theorem Faithful.save (h : a.Faithful d n) {s : Snapshot} (hs : (Request.save s).Storable)
    (hn : n + 1 < UInt64.size) : (a.save s).2.Faithful d (n + 1) := by
  obtain ⟨store, hsave, hvalid, htable⟩ := save_of_valid h.valid s
  have hid := h.numbered.next hn
  have hnumbered : (LawfulRunStore.table store).Numbered (n + 1) :=
    h.numbered.effect ((Effect.saved _ s).of_eq htable) hn
  -- the new id is above all that the cache knows about
  have hold : ∀ id : UInt64, id.toNat ≤ n →
      (LawfulRunStore.table store).run? id = (LawfulRunStore.table a.store).run? id := by
    intro id hle
    have hne : id ≠ (LawfulRunStore.table a.store).last + 1 := by
      rintro rfl
      omega
    rw [htable]
    exact if_neg hne
  have hstep : Faithful d (n + 1) { a with store := store } :=
    ⟨h.cached, hvalid, hnumbered, h.coherent.extend (Nat.le_succ n) hold⟩
  have hfetch : Archive.fetch { a with store := store } ((LawfulRunStore.table a.store).last + 1) =
      .ok { s with id := (LawfulRunStore.table a.store).last + 1 } := by
    rw [fetch_eq_read hvalid]
    refine RunTable.read_of_run? ?_ (Snapshot.decode_encode ?_ hs.2)
    · rw [htable]
      exact if_pos rfl
    · exact ⟨hs.1.layout, hs.1.title, hs.1.sourceCount, hs.1.sources, hs.1.arity, hs.1.kind⟩
  rw [hsave]
  exact hstep.remember hfetch

theorem Faithful.delete (h : a.Faithful d n) (id : UInt64) : (a.delete id).2.Faithful d n := by
  by_cases hrun : (LawfulRunStore.table a.store).run? id = none
  · simp only [Archive.delete, LawfulRunStore.delete_absent h.valid id hrun]
    exact h
  · obtain ⟨store, hdelete, hvalid, htable⟩ := LawfulRunStore.delete_eq h.valid id hrun
    have hn : n < UInt64.size := by
      rw [← h.numbered.last]
      exact (LawfulRunStore.table a.store).last.toNat_lt
    have hnumbered : (LawfulRunStore.table store).Numbered n :=
      h.numbered.effect ((Effect.deleted _ id hrun).of_eq htable) hn
    have hcoherent : Coherent n (LawfulRunStore.table store) a.entries (id :: a.deleted) := by
      rw [htable]
      exact h.coherent.bury (h.numbered.bounded id hrun)
    simp only [Archive.delete, hdelete, h.cached, if_pos]
    exact ⟨rfl, hvalid, hnumbered, hcoherent⟩

/-- **Requests.**  Without a cache the answer is the same, and the store is
the same afterwards. -/
theorem Faithful.answer (h : a.Faithful d n) (policy : CachePolicy) {r : Request}
    (hs : r.Storable) (hr : r = .reopen → d = true) (hn : n + r.draws.toNat < UInt64.size) :
    (onStore false a.store).answer policy r =
        ((a.answer policy r).1, onStore false (a.answer policy r).2.store) ∧
      (a.answer policy r).2.Faithful d (n + r.draws.toNat) := by
  cases r with
  | save s => exact ⟨by simp only [Archive.answer, save_onStore], h.save hs hn⟩
  | get id =>
    obtain ⟨hanswer, hnext⟩ := h.get policy id
    refine ⟨?_, hnext⟩
    simp only [Archive.answer, get_onStore, get_store, hanswer]
  | delete id => exact ⟨by simp only [Archive.answer, delete_onStore], h.delete id⟩
  | list =>
    obtain ⟨hanswer, hnext⟩ := h.list policy
    refine ⟨?_, hnext⟩
    simp only [Archive.answer, hanswer, list_store]
  | nextId =>
    obtain ⟨store, hnext, hvalid, htable⟩ := LawfulRunStore.nextId_eq h.valid
    have hnumbered : (LawfulRunStore.table store).Numbered (n + 1) :=
      h.numbered.effect ((Effect.drew _).of_eq htable) hn
    simp only [Archive.answer, onStore, hnext]
    refine ⟨trivial, h.cached, hvalid, hnumbered, h.coherent.extend (Nat.le_succ n) fun id _ => ?_⟩
    rw [htable]
    rfl
  | reopen =>
    obtain rfl := hr rfl
    obtain ⟨hvalid, htable⟩ := LawfulRunStore.reopen_eq h.valid
    have hnumbered : (LawfulRunStore.table (RunStore.reopen a.store)).Numbered n := by
      rw [htable]
      exact h.numbered
    exact ⟨rfl, h.cached, hvalid, hnumbered, .nil _ _⟩

/-- **Sequences.**  By induction over the requests still to come. -/
theorem Faithful.answers (h : a.Faithful d n) (steps : List (CachePolicy × Request))
    (hs : ∀ step ∈ steps, step.2.Storable) (hr : ∀ step ∈ steps, step.2 = .reopen → d = true)
    (hn : n + drawCount steps < UInt64.size) :
    a.answers steps = (onStore false a.store).answers steps := by
  induction steps generalizing n a with
  | nil => rfl
  | cons step steps ih =>
    obtain ⟨policy, r⟩ := step
    have hcount : n + drawCount ((policy, r) :: steps) =
        n + r.draws.toNat + drawCount steps := by
      rw [drawCount_cons, Nat.add_assoc]
    rw [hcount] at hn
    have hdraw : n + r.draws.toNat < UInt64.size := by omega
    obtain ⟨hanswer, hnext⟩ := h.answer policy (hs _ (List.mem_cons_self ..))
      (hr _ (List.mem_cons_self ..)) hdraw
    have hrest := ih hnext (fun step hmem => hs step (List.mem_cons_of_mem _ hmem))
      (fun step hmem => hr step (List.mem_cons_of_mem _ hmem)) hn
    rw [Archive.answers, Archive.answers, hanswer, hrest]

/-- **The cache cannot be noticed.**  Take a store that is empty or was filled
through archives, and storable runs, as many as there are ids left. Then an
archive with a cache answers every sequence of requests as one without, no
matter which of the values that were ever set under an id the cache serves, if
any. -/
theorem cached_answers_eq_uncached {store : σ} (hstore : Filled d n store)
    (steps : List (CachePolicy × Request)) (hs : ∀ step ∈ steps, step.2.Storable)
    (hr : ∀ step ∈ steps, step.2 = .reopen → d = true)
    (hn : n + drawCount steps < UInt64.size) :
    (onStore true store).answers steps = (onStore false store).answers steps := by
  obtain ⟨hvalid, hnumbered⟩ := hstore.numbered (by omega)
  have hstart : (onStore true store).Faithful d n := ⟨rfl, hvalid, hnumbered, .nil _ _⟩
  exact hstart.answers steps hs hr hn

/-- A run is saved, deleted and asked for again, and then all runs are. -/
def staleSteps : List (CachePolicy × Request) :=
  [(.latest, .save blankRun), (.latest, .delete 1), (.latest, .get 1), (.latest, .list)]

/-- The cache would still serve the deleted run. -/
theorem cached_answers_staleSteps :
    (((onStore true ({ durable := true } : KeyedStore)).answer .latest (.save blankRun)).2.answer
        .latest (.delete 1)).2.cacheHit .latest 1 = some { blankRun with id := 1 } ∧
    (onStore true ({ durable := true } : KeyedStore)).answers staleSteps =
      (onStore false ({ durable := true } : KeyedStore)).answers staleSteps := by
  have hblank : blankRun.Encodable ∧ blankRun.aggregate.Shaped := by
    refine ⟨⟨by decide, by decide, by decide, nofun, by decide, by decide⟩, ?_⟩
    exact Aggregate.shaped_fresh 1 .float
  have hstore : Filled true 0 ({ durable := true } : KeyedStore) := .empty .empty rfl
  have hs : ∀ step ∈ staleSteps, step.2.Storable := by
    simp [staleSteps, Request.Storable, hblank]
  refine ⟨rfl, cached_answers_eq_uncached hstore staleSteps hs (fun _ _ _ => rfl) ?_⟩
  decide

end Archive

end PerfReport
