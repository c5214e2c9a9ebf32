import PerfReport.Snapshot.Decode
import PerfReport.Storage.Store

/-!
# The run archive

Snapshots of finished runs in a store, with an optional read cache in front
of it. The cache may forget anything at any time and may still serve what was
deleted, so deleted ids are remembered and never looked up; ids are never
handed out again.
-/

namespace PerfReport

/-- What a cache serves under an id: none or any of the values that were ever
set under it. -/
structure CachePolicy where
  serve : UInt64 → List Snapshot → Option Snapshot
  served : ∀ id values s, serve id values = some s → s ∈ values

namespace CachePolicy

/-- The value set last. -/
def latest : CachePolicy where
  serve _ values := values.head?
  served _ _ _ h := List.mem_of_head? h

end CachePolicy

structure Archive (σ : Type) where
  store : σ
  cached : Bool
  /-- All that was ever set in the cache, latest first. -/
  entries : List (UInt64 × Snapshot) := []
  deleted : List UInt64 := []

namespace Archive

variable {σ : Type} [RunStore σ]

def remember (a : Archive σ) (id : UInt64) (s : Snapshot) : Archive σ :=
  if a.cached then { a with entries := (id, s) :: a.entries } else a

/-- The values set under an id, latest first. -/
def remembered (a : Archive σ) (id : UInt64) : List Snapshot :=
  (a.entries.filter fun e => e.1 == id).map Prod.snd

def cacheHit (policy : CachePolicy) (a : Archive σ) (id : UInt64) : Option Snapshot :=
  if a.cached then policy.serve id (a.remembered id) else none

/-- Stores a snapshot under a fresh id. -/
def save (a : Archive σ) (s : Snapshot) : Except Error UInt64 × Archive σ :=
  match RunStore.nextId a.store with
  | .error e => (.error (.store e), a)
  | .ok (id, store) =>
    let a := { a with store := store }
    let s := { s with id := id }
    match RunStore.put a.store id s.encode with
    | .error e => (.error (.store e), a)
    | .ok store => (.ok id, { a with store := store }.remember id s)

/-- The stored bytes, decoded. -/
def fetch (a : Archive σ) (id : UInt64) : Except Error Snapshot := do
  let bytes ← (RunStore.get a.store id).mapError Error.store
  (Snapshot.decode bytes).mapError Error.snapshot

def get (policy : CachePolicy) (a : Archive σ) (id : UInt64) : Except Error Snapshot × Archive σ :=
  if a.cached ∧ id ∈ a.deleted then (.error (.store .notFound), a)
  else match a.cacheHit policy id with
    | some s => (.ok s, a)
    | none =>
      match a.fetch id with
      | .ok s => (.ok s, a.remember id s)
      | .error e => (.error e, a)

def delete (a : Archive σ) (id : UInt64) : Except Error Unit × Archive σ :=
  match RunStore.delete a.store id with
  | .error e => (.error (.store e), a)
  | .ok store =>
    (.ok (), { a with store := store, deleted := if a.cached then id :: a.deleted else a.deleted })

/-- The snapshots of these ids in order, up to the first that fails. -/
def getAll (policy : CachePolicy) : (a : Archive σ) → (done : List Snapshot) → List UInt64 →
    Except Error (List Snapshot) × Archive σ
  | a, done, [] => (.ok done.reverse, a)
  | a, done, id :: ids =>
    match a.get policy id with
    | (.ok s, a) => getAll policy a (s :: done) ids
    | (.error e, a) => (.error e, a)

/-- Every snapshot in run order. -/
def list (policy : CachePolicy) (a : Archive σ) : Except Error (List Snapshot) × Archive σ :=
  match RunStore.index a.store with
  | .ok ids => getAll policy a [] ids
  | .error e => (.error (.store e), a)

/-- The archive after closing; what was cached is gone. -/
def close (a : Archive σ) : Archive σ := { a with store := RunStore.close a.store, entries := [] }

def reopen (a : Archive σ) : Archive σ :=
  { store := RunStore.reopen a.store, cached := a.cached }

end Archive

end PerfReport
