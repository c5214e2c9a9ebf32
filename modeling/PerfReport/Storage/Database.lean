import PerfReport.Storage.Key
import PerfReport.Storage.Store

/-!
# Runs in a database

A database is a table of byte strings that can be gone through in the order of
its keys. One database holds the runs and, under a key of its own, the last id
that was handed out.
-/

namespace PerfReport

class Database (δ : Type) where
  /-- A new database. One that is not durable is gone once it is closed. -/
  empty : (durable : Bool) → δ
  find? : δ → (key : Text) → Option Text
  set : δ → (key value : Text) → δ
  remove : δ → (key : Text) → δ
  /-- The keys that begin with a byte, in order. -/
  scan : δ → (first : UInt8) → List Text
  /-- The database after it was closed and opened again. -/
  reopen : δ → δ

namespace Database

variable {δ : Type} [Database δ]

def get (db : δ) (id : UInt64) : Except StoreError Text :=
  match find? db (Key.ofRun id) with
  | some bytes => .ok bytes
  | none => .error .notFound

def delete (db : δ) (id : UInt64) : Except StoreError δ :=
  match find? db (Key.ofRun id) with
  | some _ => .ok (remove db (Key.ofRun id))
  | none => .error .notFound

def index (db : δ) : List UInt64 :=
  ((scan db Key.runMark).filter Key.isRun).filterMap Key.runId?

def lastId (db : δ) : UInt64 :=
  match find? db Key.lastId with
  | some bytes => UInt64.ofNat (Word.bigValue bytes)
  | none => 0

def nextId (db : δ) : UInt64 × δ :=
  let next := lastId db + 1
  (next, set db Key.lastId (Word.big 8 next.toNat))

instance : RunStore δ where
  get := get
  put db id bytes := .ok (set db (Key.ofRun id) bytes)
  delete := delete
  index db := .ok (index db)
  nextId db := .ok (nextId db)
  close db := db
  reopen := reopen

end Database

end PerfReport
