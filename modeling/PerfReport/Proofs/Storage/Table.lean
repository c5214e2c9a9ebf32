import PerfReport.Storage.Memory

/-!
# Stores as tables

To its callers a store is a table of runs and a counter. `LawfulRunStore`
says what every call makes of that table. A store in memory obeys it, although
its table is in no particular order.
-/

namespace PerfReport

/-- Runs by id, and the last id that was handed out. -/
@[ext] structure RunTable where
  run? : UInt64 → Option Text
  last : UInt64

namespace RunTable

def empty : RunTable := ⟨fun _ => none, 0⟩

def get (t : RunTable) (id : UInt64) : Except StoreError Text :=
  match t.run? id with
  | some bytes => .ok bytes
  | none => .error .notFound

def put (t : RunTable) (id : UInt64) (bytes : Text) : RunTable :=
  { t with run? := fun k => if k = id then some bytes else t.run? k }

def drop (t : RunTable) (id : UInt64) : RunTable :=
  { t with run? := fun k => if k = id then none else t.run? k }

def draw (t : RunTable) : RunTable := { t with last := t.last + 1 }

end RunTable

/-- A store that does to its table what its calls say. Every call but opening
it again also keeps whether the store is `durable`; a durable one keeps its
table even then. -/
class LawfulRunStore (σ : Type) [RunStore σ] where
  table : σ → RunTable
  Valid : (durable : Bool) → σ → Prop
  get_eq {d : Bool} {s : σ} : Valid d s → ∀ id, RunStore.get s id = (table s).get id
  put_eq {d : Bool} {s : σ} : Valid d s → ∀ id bytes, ∃ s', RunStore.put s id bytes = .ok s' ∧
    Valid d s' ∧ table s' = (table s).put id bytes
  delete_eq {d : Bool} {s : σ} : Valid d s → ∀ id, (table s).run? id ≠ none →
    ∃ s', RunStore.delete s id = .ok s' ∧ Valid d s' ∧ table s' = (table s).drop id
  delete_absent {d : Bool} {s : σ} : Valid d s → ∀ id, (table s).run? id = none →
    RunStore.delete s id = .error .notFound
  index_eq {d : Bool} {s : σ} : Valid d s → ∃ ids, RunStore.index s = .ok ids ∧
    ids.Pairwise (· < ·) ∧ ∀ id, id ∈ ids ↔ (table s).run? id ≠ none
  nextId_eq {d : Bool} {s : σ} : Valid d s → ∃ s',
    RunStore.nextId s = .ok ((table s).last + 1, s') ∧ Valid d s' ∧ table s' = (table s).draw
  reopen_eq {s : σ} : Valid true s →
    Valid true (RunStore.reopen s) ∧ table (RunStore.reopen s) = table s

/-! ## Stores with the same runs -/

/-- An ascending list is determined by its members. -/
theorem eq_of_ascending {ids ids' : List UInt64} (h : ids.Pairwise (· < ·))
    (h' : ids'.Pairwise (· < ·)) (hmem : ∀ id, id ∈ ids ↔ id ∈ ids') : ids = ids' := by
  have hperm : ids.Perm ids' :=
    (List.perm_ext_iff_of_nodup (h.imp UInt64.ne_of_lt) (h'.imp UInt64.ne_of_lt)).mpr hmem
  refine List.Perm.eq_of_pairwise ?_ h h' hperm
  intro a b _ _ hab hba
  exact absurd hba (UInt64.lt_asymm hab)

namespace LawfulRunStore

variable {σ : Type} [RunStore σ] [LawfulRunStore σ] {d : Bool} {s s' : σ}

theorem get_congr (h : Valid d s) (h' : Valid d s') (hrun : (table s').run? = (table s).run?)
    (id : UInt64) : RunStore.get s' id = RunStore.get s id := by
  rw [get_eq h', get_eq h, RunTable.get, RunTable.get, hrun]

theorem index_congr (h : Valid d s) (h' : Valid d s') (hrun : (table s').run? = (table s).run?) :
    RunStore.index s' = RunStore.index s := by
  obtain ⟨ids, hindex, hsorted, hmem⟩ := index_eq h
  obtain ⟨ids', hindex', hsorted', hmem'⟩ := index_eq h'
  have hids : ids' = ids := by
    refine eq_of_ascending hsorted' hsorted ?_
    intro id
    rw [hmem, hmem', hrun]
  rw [hindex, hindex', hids]

end LawfulRunStore

/-! ## Tables as lists -/

section Lookup

variable {κ ν : Type} [DecidableEq κ] [BEq κ] [LawfulBEq κ]

theorem lookup_cons_if (e : κ × ν) (entries : List (κ × ν)) (k : κ) :
    (e :: entries).lookup k = if k = e.1 then some e.2 else entries.lookup k := by
  by_cases hk : k = e.1
  · have hbeq : (k == e.1) = true := by simp [hk]
    rw [List.lookup_cons, hbeq, if_pos hk]
  · have hbeq : (k == e.1) = false := by simp [hk]
    rw [List.lookup_cons, hbeq, if_neg hk]

theorem lookup_filter_ne (key : κ) (entries : List (κ × ν)) (k : κ) :
    (entries.filter fun e => e.1 != key).lookup k = if k = key then none else entries.lookup k := by
  induction entries with
  | nil => simp
  | cons e entries ih =>
    by_cases he : e.1 = key
    · rw [List.filter_cons_of_neg (by simp [he]), ih, lookup_cons_if, he]
      split <;> rfl
    · rw [List.filter_cons_of_pos (by simp [he]), lookup_cons_if, ih, lookup_cons_if]
      by_cases hk : k = e.1
      · simp [hk, he]
      · simp [hk]

theorem lookup_ne_none_iff (entries : List (κ × ν)) (k : κ) :
    entries.lookup k ≠ none ↔ k ∈ entries.map Prod.fst := by
  induction entries with
  | nil => simp
  | cons e entries ih =>
    rw [lookup_cons_if, List.map_cons, List.mem_cons, ← ih]
    by_cases hk : k = e.1 <;> simp [hk]

end Lookup

/-! ## Stores in memory -/

namespace MemoryStore

/-- Open, with one run for an id. -/
structure Sound (s : MemoryStore) : Prop where
  isOpen : s.runs = some s.table
  distinct : (s.table.map Prod.fst).Nodup

theorem nodup_without {runs : List (UInt64 × Text)} (h : (runs.map Prod.fst).Nodup) (id : UInt64) :
    ((without id runs).map Prod.fst).Nodup :=
  h.sublist (List.filter_sublist.map Prod.fst)

theorem not_mem_without (runs : List (UInt64 × Text)) (id : UInt64) :
    id ∉ (without id runs).map Prod.fst := by
  rw [← lookup_ne_none_iff]
  simp [without, lookup_filter_ne]

/-- A sorted list without repetitions is strictly sorted. -/
theorem pairwise_lt_index {s : MemoryStore} (h : s.Sound) : s.index.Pairwise (· < ·) := by
  have hle : s.index.Pairwise fun a b => decide (a ≤ b) = true :=
    List.pairwise_mergeSort (by simpa using fun _ _ _ => UInt64.le_trans)
      (by simpa using UInt64.le_total) _
  have hne : s.index.Pairwise (· ≠ ·) := (List.mergeSort_perm _ _).nodup_iff.mpr h.distinct
  refine (hle.and hne).imp ?_
  rintro a b ⟨hab, hne⟩
  exact UInt64.lt_of_le_of_ne (of_decide_eq_true hab) hne

def asTable (s : MemoryStore) : RunTable := ⟨fun id => s.table.lookup id, s.lastId⟩

theorem put_sound {s : MemoryStore} (h : s.Sound) (id : UInt64) (bytes : Text) :
    ∃ s', s.put id bytes = .ok s' ∧ s'.Sound ∧ s'.asTable = s.asTable.put id bytes := by
  refine ⟨{ s with runs := some ((id, bytes) :: without id s.table) }, ?_, ⟨rfl, ?_⟩, ?_⟩
  · rw [put, h.isOpen]
  · exact List.nodup_cons.mpr ⟨not_mem_without s.table id, nodup_without h.distinct id⟩
  · ext1
    · funext k
      show ((id, bytes) :: without id s.table).lookup k = _
      rw [lookup_cons_if, without, lookup_filter_ne]
      by_cases hk : k = id <;> simp [RunTable.put, asTable, hk]
    · rfl

theorem delete_sound {s : MemoryStore} (h : s.Sound) {id : UInt64}
    (hrun : s.asTable.run? id ≠ none) :
    ∃ s', s.delete id = .ok s' ∧ s'.Sound ∧ s'.asTable = s.asTable.drop id := by
  obtain ⟨bytes, hb⟩ := Option.ne_none_iff_exists'.mp hrun
  have hb : s.table.lookup id = some bytes := hb
  refine ⟨{ s with runs := some (without id s.table) }, ?_, ⟨rfl, ?_⟩, ?_⟩
  · rw [delete, hb]
  · exact nodup_without h.distinct id
  · ext1
    · funext k
      exact lookup_filter_ne id s.table k
    · rfl

theorem delete_absent {s : MemoryStore} {id : UInt64} (hrun : s.asTable.run? id = none) :
    s.delete id = .error .notFound := by
  have hrun : s.table.lookup id = none := hrun
  rw [delete, hrun]

theorem mem_index_iff (s : MemoryStore) (id : UInt64) :
    id ∈ s.index ↔ s.asTable.run? id ≠ none := by
  rw [index, List.mem_mergeSort, ← lookup_ne_none_iff]
  rfl

instance : LawfulRunStore MemoryStore where
  table := asTable
  Valid d s := d = false ∧ s.Sound
  get_eq _ _ := rfl
  put_eq := by
    rintro d s ⟨hd, h⟩ id bytes
    obtain ⟨s', hput, h', ht⟩ := put_sound h id bytes
    exact ⟨s', hput, ⟨hd, h'⟩, ht⟩
  delete_eq := by
    rintro d s ⟨hd, h⟩ id hrun
    obtain ⟨s', hdelete, h', ht⟩ := delete_sound h hrun
    exact ⟨s', hdelete, ⟨hd, h'⟩, ht⟩
  delete_absent _ _ hrun := delete_absent hrun
  index_eq h := ⟨_, rfl, pairwise_lt_index h.2, mem_index_iff _⟩
  nextId_eq h := ⟨_, rfl, ⟨h.1, h.2.isOpen, h.2.distinct⟩, rfl⟩
  reopen_eq h := nomatch h.1

end MemoryStore

end PerfReport
