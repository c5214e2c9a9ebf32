import PerfReport.Storage.Store

/-!
# Stores in memory

A table of runs in no particular order, with a counter beside it. Closing
drops the table: reads then find nothing and writes fail, but the counter
lives on.
-/

namespace PerfReport

structure MemoryStore where
  /-- None once closed. -/
  runs : Option (List (UInt64 × Text)) := some []
  lastId : UInt64 := 0

namespace MemoryStore

def table (s : MemoryStore) : List (UInt64 × Text) := s.runs.getD []

def get (s : MemoryStore) (id : UInt64) : Except StoreError Text :=
  match s.table.lookup id with
  | some bytes => .ok bytes
  | none => .error .notFound

def without (id : UInt64) (runs : List (UInt64 × Text)) : List (UInt64 × Text) :=
  runs.filter fun r => r.1 != id

def put (s : MemoryStore) (id : UInt64) (bytes : Text) : Except StoreError MemoryStore :=
  match s.runs with
  | some runs => .ok { s with runs := some ((id, bytes) :: without id runs) }
  | none => .error .closed

def delete (s : MemoryStore) (id : UInt64) : Except StoreError MemoryStore :=
  match s.table.lookup id with
  | some _ => .ok { s with runs := some (without id s.table) }
  | none => .error .notFound

def index (s : MemoryStore) : List UInt64 := (s.table.map Prod.fst).mergeSort (· ≤ ·)

def nextId (s : MemoryStore) : UInt64 × MemoryStore :=
  (s.lastId + 1, { s with lastId := s.lastId + 1 })

instance : RunStore MemoryStore where
  get := get
  put := put
  delete := delete
  index s := .ok s.index
  nextId s := .ok s.nextId
  close s := { s with runs := none }
  reopen _ := {}

end MemoryStore

end PerfReport
