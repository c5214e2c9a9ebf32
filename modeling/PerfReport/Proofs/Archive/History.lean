import PerfReport.Archive
import PerfReport.Proofs.Aggregate.Update
import PerfReport.Proofs.Storage.Table
import PerfReport.Storage.Faulty

/-!
# Histories of an archive

An archive without a cache is asked one thing after another, while any call
to its store may fail. What was asked and answered is a list of events.

* `perform`, `history`: one step, and a whole history;
* `Effect`: what a step may do to the table of the store, by its event;
* `perform_effect`: and it does nothing else;
* `Ready.fetch_run`, `Ready.list_ok`: what is read when nothing fails.
-/

namespace PerfReport

/-! ## Stores whose calls fail one by one -/

/-- A store with the calls about each run, and about none, that fail. -/
structure Erratic (σ : Type) where
  store : σ
  failing : Option UInt64 → List StoreCall

namespace Erratic

variable {σ : Type} [RunStore σ]

/-- The store for one call: it fails or does what it is asked to. -/
def about (s : Erratic σ) (run : Option UInt64) : Faulty σ := ⟨s.store, s.failing run⟩

instance : RunStore (Erratic σ) where
  get s id := RunStore.get (s.about (some id)) id
  put s id bytes := do
    return { s with store := (← RunStore.put (s.about (some id)) id bytes).store }
  delete s id := do
    return { s with store := (← RunStore.delete (s.about (some id)) id).store }
  index s := RunStore.index (s.about none)
  nextId s := do
    let (id, f) ← RunStore.nextId (s.about none)
    return (id, { s with store := f.store })
  close s := { s with store := RunStore.close s.store }
  reopen s := { s with store := RunStore.reopen s.store }

variable {s : Erratic σ} {id : UInt64}

theorem put_failing (hf : .put ∈ s.failing (some id)) (bytes : Text) :
    RunStore.put s id bytes = .error (.injected .put) := by
  simp [RunStore.put, Faulty.guarded, about, hf, bind, Except.bind]

theorem delete_failing (hf : .delete ∈ s.failing (some id)) :
    RunStore.delete s id = .error (.injected .delete) := by
  simp [RunStore.delete, Faulty.guarded, about, hf, bind, Except.bind]

theorem nextId_failing (hf : .nextId ∈ s.failing none) :
    RunStore.nextId s = .error (.injected .nextId) := by
  simp [RunStore.nextId, Faulty.guarded, about, hf, bind, Except.bind]

variable [LawfulRunStore σ] {d : Bool} (h : LawfulRunStore.Valid d s.store)

include h

theorem get_working (hf : .get ∉ s.failing (some id)) :
    RunStore.get s id = (LawfulRunStore.table s.store).get id := by
  rw [← LawfulRunStore.get_eq h id]
  exact if_neg hf

theorem put_working (hf : .put ∉ s.failing (some id)) (bytes : Text) :
    ∃ store, RunStore.put s id bytes = .ok { s with store := store } ∧
      LawfulRunStore.Valid d store ∧
      LawfulRunStore.table store = (LawfulRunStore.table s.store).put id bytes := by
  obtain ⟨store, hput, hvalid, htable⟩ := LawfulRunStore.put_eq h id bytes
  refine ⟨store, ?_, hvalid, htable⟩
  simp [RunStore.put, Faulty.guarded, about, hf, hput, bind, Except.bind, pure, Except.pure]

theorem delete_working (hf : .delete ∉ s.failing (some id))
    (hrun : (LawfulRunStore.table s.store).run? id ≠ none) :
    ∃ store, RunStore.delete s id = .ok { s with store := store } ∧
      LawfulRunStore.Valid d store ∧
      LawfulRunStore.table store = (LawfulRunStore.table s.store).drop id := by
  obtain ⟨store, hdelete, hvalid, htable⟩ := LawfulRunStore.delete_eq h id hrun
  refine ⟨store, ?_, hvalid, htable⟩
  simp [RunStore.delete, Faulty.guarded, about, hf, hdelete, bind, Except.bind, pure, Except.pure]

theorem delete_missing (hf : .delete ∉ s.failing (some id))
    (hrun : (LawfulRunStore.table s.store).run? id = none) :
    RunStore.delete s id = .error .notFound := by
  have hdelete := LawfulRunStore.delete_absent h id hrun
  simp [RunStore.delete, Faulty.guarded, about, hf, hdelete, bind, Except.bind]

theorem index_working (hf : .index ∉ s.failing none) :
    ∃ ids, RunStore.index s = .ok ids ∧ ids.Pairwise (· < ·) ∧
      ∀ id, id ∈ ids ↔ (LawfulRunStore.table s.store).run? id ≠ none := by
  obtain ⟨ids, hindex, hids⟩ := LawfulRunStore.index_eq h
  refine ⟨ids, ?_, hids⟩
  rw [← hindex]
  exact if_neg hf

theorem nextId_working (hf : .nextId ∉ s.failing none) :
    ∃ store, RunStore.nextId s =
        .ok ((LawfulRunStore.table s.store).last + 1, { s with store := store }) ∧
      LawfulRunStore.Valid d store ∧
      LawfulRunStore.table store = (LawfulRunStore.table s.store).draw := by
  obtain ⟨store, hnext, hvalid, htable⟩ := LawfulRunStore.nextId_eq h
  refine ⟨store, ?_, hvalid, htable⟩
  simp [RunStore.nextId, Faulty.guarded, about, hf, hnext, bind, Except.bind, pure, Except.pure]

end Erratic

/-! ## Steps -/

/-- What is asked of an archive. -/
inductive Request
  | save (s : Snapshot)
  | get (id : UInt64)
  | delete (id : UInt64)
  | list
  | nextId
  | reopen

/-- A request, and the calls of the store that fail meanwhile. -/
structure Step where
  failing : Option UInt64 → List StoreCall
  request : Request

/-- A request with its answer. -/
inductive Event
  | saved (s : Snapshot) (r : Except Error UInt64)
  | got (id : UInt64) (r : Except Error Snapshot)
  | deleted (id : UInt64) (r : Except Error Unit)
  | listed (r : Except Error (List Snapshot))
  | drew (r : Except Error UInt64)
  | reopened

namespace Step

/-- Nothing fails. -/
def Calm (step : Step) : Prop := ∀ run, step.failing run = []

theorem Calm.not_mem {step : Step} (h : step.Calm) (call : StoreCall) (run : Option UInt64) :
    call ∉ step.failing run := by
  simp [h run]

/-- Whether the counter goes on: an id is asked for and the call does not
fail, whatever becomes of the id. -/
def draws (step : Step) : Bool :=
  match step.request with
  | .save _ | .nextId => decide (.nextId ∉ step.failing none)
  | _ => false

/-- How many ids are drawn. -/
def drawCount (steps : List Step) : Nat := steps.countP draws

theorem drawCount_cons (step : Step) (steps : List Step) :
    drawCount (step :: steps) = step.draws.toNat + drawCount steps := by
  cases hd : step.draws <;> simp [drawCount, hd, Nat.add_comm]

theorem drawCount_snoc (steps : List Step) (step : Step) :
    drawCount (steps ++ [step]) = drawCount steps + step.draws.toNat := by
  cases hd : step.draws <;> simp [drawCount, hd]

end Step

namespace Archive

variable {σ : Type} [RunStore σ]

/-- An archive without a cache on a store. -/
def bare (store : σ) : Archive (Erratic σ) where
  store := { store := store, failing := fun _ => [] }
  cached := false

def withFaults (a : Archive (Erratic σ)) (failing : Option UInt64 → List StoreCall) :
    Archive (Erratic σ) :=
  { a with store := { a.store with failing := failing } }

def perform (a : Archive (Erratic σ)) (step : Step) : Event × Archive (Erratic σ) :=
  let a := a.withFaults step.failing
  match step.request with
  | .save s => (.saved s (a.save s).1, (a.save s).2)
  | .get id => (.got id (a.get .latest id).1, (a.get .latest id).2)
  | .delete id => (.deleted id (a.delete id).1, (a.delete id).2)
  | .list => (.listed (a.list .latest).1, (a.list .latest).2)
  | .nextId =>
    match RunStore.nextId a.store with
    | .ok (id, store) => (.drew (.ok id), { a with store := store })
    | .error e => (.drew (.error (.store e)), a)
  | .reopen => (.reopened, a.reopen)

/-- The events of a history so far and one more step. -/
def advance (h : List Event × Archive (Erratic σ)) (step : Step) :
    List Event × Archive (Erratic σ) :=
  (h.1 ++ [(h.2.perform step).1], (h.2.perform step).2)

def history (start : Archive (Erratic σ)) (steps : List Step) : List Event × Archive (Erratic σ) :=
  steps.foldl advance ([], start)

/-- A run is stored under the id that was drawn for it. -/
theorem save_put {a : Archive (Erratic σ)} {s : Snapshot} {id : UInt64} {store store' : Erratic σ}
    (hnext : RunStore.nextId a.store = .ok (id, store))
    (hput : RunStore.put store id { s with id := id }.encode = .ok store') :
    a.save s = (.ok id, { a with store := store' }.remember id { s with id := id }) := by
  simp only [Archive.save, hnext, hput]

theorem save_put_error {a : Archive (Erratic σ)} {s : Snapshot} {id : UInt64} {store : Erratic σ}
    {e : StoreError} (hnext : RunStore.nextId a.store = .ok (id, store))
    (hput : RunStore.put store id { s with id := id }.encode = .error e) :
    a.save s = (.error (.store e), { a with store := store }) := by
  simp only [Archive.save, hnext, hput]

end Archive

/-! ## What a step does -/

/-- The table after an event, from the table before it; `drawn` tells whether
an id was drawn. -/
inductive Effect : (drawn : Bool) → RunTable → Event → RunTable → Prop
  | saved (t : RunTable) (s : Snapshot) :
      Effect true t (.saved s (.ok (t.last + 1)))
        (t.draw.put (t.last + 1) { s with id := t.last + 1 }.encode)
  | notSaved (drawn : Bool) (t : RunTable) (s : Snapshot) (e : Error) :
      Effect drawn t (.saved s (.error e)) (if drawn then t.draw else t)
  | drew (t : RunTable) : Effect true t (.drew (.ok (t.last + 1))) t.draw
  | notDrawn (t : RunTable) (e : Error) : Effect false t (.drew (.error e)) t
  | deleted (t : RunTable) (id : UInt64) : t.run? id ≠ none →
      Effect false t (.deleted id (.ok ())) (t.drop id)
  | notDeleted (t : RunTable) (id : UInt64) (e : Error) :
      Effect false t (.deleted id (.error e)) t
  | got (t : RunTable) (id : UInt64) (r : Except Error Snapshot) : Effect false t (.got id r) t
  | listed (t : RunTable) (r : Except Error (List Snapshot)) : Effect false t (.listed r) t
  | reopened (t : RunTable) : Effect false t .reopened t

theorem Effect.of_eq {drawn : Bool} {t t' u : RunTable} {e : Event} (h : Effect drawn t e u)
    (ht : t' = u) : Effect drawn t e t' :=
  ht ▸ h

namespace Archive

variable {σ : Type} [RunStore σ] [LawfulRunStore σ] {d : Bool} {a : Archive (Erratic σ)}

def table (a : Archive (Erratic σ)) : RunTable := LawfulRunStore.table a.store.store

/-- No cache, and a store in order. -/
structure Ready (d : Bool) (a : Archive (Erratic σ)) : Prop where
  cached : a.cached = false
  valid : LawfulRunStore.Valid d a.store.store

theorem Ready.withFaults (h : a.Ready d) (failing : Option UInt64 → List StoreCall) :
    (a.withFaults failing).Ready d :=
  ⟨h.cached, h.valid⟩

theorem Ready.remember (h : a.Ready d) (id : UInt64) (s : Snapshot) : a.remember id s = a := by
  rw [Archive.remember, h.cached, if_neg Bool.false_ne_true]

/-- Without a cache every snapshot is fetched from the store. -/
theorem Ready.get (h : a.Ready d) (policy : CachePolicy) (id : UInt64) :
    a.get policy id = (a.fetch id, a) := by
  have hhit : a.cacheHit policy id = none := by
    rw [cacheHit, h.cached, if_neg Bool.false_ne_true]
  have hdeleted : ¬ (a.cached = true ∧ id ∈ a.deleted) := by simp [h.cached]
  rw [Archive.get, if_neg hdeleted, hhit]
  cases hf : a.fetch id with
  | ok s => simp only [h.remember]
  | error e => rfl

theorem Ready.getAll (h : a.Ready d) (policy : CachePolicy) (done : List Snapshot)
    (ids : List UInt64) : (getAll policy a done ids).2 = a := by
  induction ids generalizing done with
  | nil => rfl
  | cons id ids ih =>
    rw [Archive.getAll, h.get]
    cases hf : a.fetch id with
    | ok s => exact ih (s :: done)
    | error e => rfl

theorem Ready.list (h : a.Ready d) (policy : CachePolicy) : (a.list policy).2 = a := by
  rw [Archive.list]
  split
  · exact h.getAll policy [] _
  · rfl

/-- An id is drawn first. It is lost if the run cannot be stored. -/
theorem Ready.save (h : a.Ready d) (s : Snapshot) : (a.save s).2.Ready d ∧
    Effect (decide (.nextId ∉ a.store.failing none)) a.table (.saved s (a.save s).1)
      (a.save s).2.table := by
  by_cases hn : .nextId ∈ a.store.failing none
  · have hsave : a.save s = (.error (.store (.injected .nextId)), a) := by
      rw [Archive.save, Erratic.nextId_failing hn]
    rw [hsave, decide_eq_false (not_not_intro hn)]
    exact ⟨h, .notSaved false a.table s _⟩
  · obtain ⟨store, hnext, hvalid, htable⟩ := Erratic.nextId_working h.valid hn
    rw [decide_eq_true hn]
    by_cases hp : .put ∈ a.store.failing (some (a.table.last + 1))
    · have hput := Erratic.put_failing (s := ⟨store, a.store.failing⟩) hp
      rw [save_put_error hnext (hput _)]
      exact ⟨⟨h.cached, hvalid⟩, (Effect.notSaved true a.table s _).of_eq htable⟩
    · obtain ⟨store', hput, hvalid', htable'⟩ :=
        Erratic.put_working (s := ⟨store, a.store.failing⟩) hvalid hp
          { s with id := a.table.last + 1 }.encode
      have hready : Ready d { a with store := ⟨store', a.store.failing⟩ } := ⟨h.cached, hvalid'⟩
      rw [save_put hnext hput, hready.remember]
      have htables : LawfulRunStore.table store' = a.table.draw.put (a.table.last + 1)
          { s with id := a.table.last + 1 }.encode := by
        rw [htable', htable]
        rfl
      exact ⟨hready, (Effect.saved a.table s).of_eq htables⟩

theorem Ready.delete (h : a.Ready d) (id : UInt64) : (a.delete id).2.Ready d ∧
    Effect false a.table (.deleted id (a.delete id).1) (a.delete id).2.table := by
  have hfail (e : StoreError) (he : RunStore.delete a.store id = .error e) :
      (a.delete id).2.Ready d ∧
        Effect false a.table (.deleted id (a.delete id).1) (a.delete id).2.table := by
    simp only [Archive.delete, he]
    exact ⟨h, .notDeleted a.table id _⟩
  by_cases hf : .delete ∈ a.store.failing (some id)
  · exact hfail _ (Erratic.delete_failing hf)
  · by_cases hrun : a.table.run? id = none
    · exact hfail _ (Erratic.delete_missing h.valid hf hrun)
    · obtain ⟨store, hdelete, hvalid, htable⟩ := Erratic.delete_working h.valid hf hrun
      simp only [Archive.delete, hdelete]
      exact ⟨⟨h.cached, hvalid⟩, (Effect.deleted a.table id hrun).of_eq htable⟩

/-- **Steps.**  A step has one of the effects above on the table, and leaves
the archive ready for the next one. -/
theorem perform_effect (h : a.Ready d) (step : Step) (hr : step.request = .reopen → d = true) :
    (a.perform step).2.Ready d ∧
      Effect step.draws a.table (a.perform step).1 (a.perform step).2.table := by
  have hb := h.withFaults step.failing
  obtain ⟨failing, request⟩ := step
  cases request with
  | save s => exact hb.save s
  | get id =>
    simp only [perform, hb.get]
    exact ⟨hb, .got _ id _⟩
  | delete id => exact hb.delete id
  | list =>
    simp only [perform, hb.list]
    exact ⟨hb, .listed _ _⟩
  | nextId =>
    by_cases hn : .nextId ∈ failing none
    · have hnext := Erratic.nextId_failing (s := (a.withFaults failing).store) hn
      simp only [perform, Step.draws, hnext, decide_eq_false (not_not_intro hn)]
      exact ⟨hb, .notDrawn _ _⟩
    · obtain ⟨store, hnext, hvalid, htable⟩ := Erratic.nextId_working hb.valid hn
      simp only [perform, Step.draws, hnext, decide_eq_true hn]
      exact ⟨⟨h.cached, hvalid⟩, (Effect.drew _).of_eq htable⟩
  | reopen =>
    obtain rfl := hr rfl
    obtain ⟨hvalid, htable⟩ := LawfulRunStore.reopen_eq h.valid
    exact ⟨⟨h.cached, hvalid⟩, (Effect.reopened a.table).of_eq htable⟩

/-! ## Answers when nothing fails -/

theorem Ready.fetch_run (h : a.Ready d) {id : UInt64} (hf : .get ∉ a.store.failing (some id))
    {bytes : Text} {s : Snapshot} (hrun : a.table.run? id = some bytes)
    (hs : Snapshot.decode bytes = .ok s) : a.fetch id = .ok s := by
  have hrun : (LawfulRunStore.table a.store.store).run? id = some bytes := hrun
  rw [fetch, Erratic.get_working h.valid hf, RunTable.get, hrun]
  show (Snapshot.decode bytes).mapError Error.snapshot = .ok s
  rw [hs]
  rfl

theorem Ready.fetch_absent (h : a.Ready d) {id : UInt64} (hf : .get ∉ a.store.failing (some id))
    (hrun : a.table.run? id = none) : a.fetch id = .error (.store .notFound) := by
  have hrun : (LawfulRunStore.table a.store.store).run? id = none := hrun
  rw [fetch, Erratic.get_working h.valid hf, RunTable.get, hrun]
  rfl

theorem Ready.getAll_ok (h : a.Ready d) (policy : CachePolicy) (done : List Snapshot)
    {ids : List UInt64} (hf : ∀ id ∈ ids, ∃ s, a.fetch id = .ok s ∧ s.id = id) :
    ∃ snapshots, (Archive.getAll policy a done ids).1 = .ok (done.reverse ++ snapshots) ∧
      snapshots.map Snapshot.id = ids ∧ ∀ s ∈ snapshots, a.fetch s.id = .ok s := by
  induction ids generalizing done with
  | nil => exact ⟨[], by simp [Archive.getAll], rfl, nofun⟩
  | cons id ids ih =>
    obtain ⟨s, hs, rfl⟩ := hf id (List.mem_cons_self ..)
    obtain ⟨snapshots, hall, hids, hfetch⟩ :=
      ih (s :: done) fun i hi => hf i (List.mem_cons_of_mem _ hi)
    refine ⟨s :: snapshots, ?_, by rw [List.map_cons, hids], ?_⟩
    · rw [Archive.getAll, h.get, hs]
      simpa using hall
    · intro u hu
      rcases List.mem_cons.mp hu with rfl | hu
      · exact hs
      · exact hfetch u hu

/-- Every stored run once, in ascending order of ids. -/
theorem Ready.list_ok (h : a.Ready d) (policy : CachePolicy) (hi : .index ∉ a.store.failing none)
    (hf : ∀ id, a.table.run? id ≠ none → ∃ s, a.fetch id = .ok s ∧ s.id = id) :
    ∃ snapshots, (a.list policy).1 = .ok snapshots ∧
      (snapshots.map Snapshot.id).Pairwise (· < ·) ∧ (∀ s ∈ snapshots, a.fetch s.id = .ok s) ∧
      ∀ id, id ∈ snapshots.map Snapshot.id ↔ a.table.run? id ≠ none := by
  obtain ⟨ids, hindex, hsorted, hmem⟩ := Erratic.index_working h.valid hi
  obtain ⟨snapshots, hall, rfl, hfetch⟩ :=
    h.getAll_ok policy [] fun id hid => hf id ((hmem id).mp hid)
  refine ⟨snapshots, ?_, hsorted, hfetch, hmem⟩
  rw [Archive.list, hindex]
  exact hall

end Archive

end PerfReport
