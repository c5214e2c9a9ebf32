import PerfReport.Storage.Database

/-!
# Databases as sorted lists
-/

namespace PerfReport

structure KeyedStore where
  durable : Bool
  /-- In ascending order of keys. -/
  entries : List (Text × Text) := []

namespace KeyedStore

def find? (s : KeyedStore) (key : Text) : Option Text := s.entries.lookup key

/-- Puts an entry in its place, over an older one with the same key. -/
def insertEntry (key value : Text) : List (Text × Text) → List (Text × Text)
  | [] => [(key, value)]
  | (k, v) :: rest =>
    if key < k then (key, value) :: (k, v) :: rest
    else if key = k then (key, value) :: rest
    else (k, v) :: insertEntry key value rest

def set (s : KeyedStore) (key value : Text) : KeyedStore :=
  { s with entries := insertEntry key value s.entries }

def remove (s : KeyedStore) (key : Text) : KeyedStore :=
  { s with entries := s.entries.filter fun e => e.1 != key }

def scan (s : KeyedStore) (first : UInt8) : List Text :=
  (s.entries.map Prod.fst).filter fun k => k.head? == some first

@[default_instance] instance : Database KeyedStore where
  empty durable := { durable := durable }
  find? := find?
  set := set
  remove := remove
  scan := scan
  reopen s := if s.durable then s else { s with entries := [] }

end KeyedStore

end PerfReport
