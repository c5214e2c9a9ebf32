import PerfReport.Proofs.Storage.Key
import PerfReport.Proofs.Storage.Table
import PerfReport.Storage.Database

/-!
# Databases as tables of runs

Of a database no more is known than `LawfulDatabase` says: it maps keys to
values, it goes through its keys in ascending order, and a durable one has the
same entries after it was opened again. That makes it a lawful store of runs. A
run never has the key of the counter, and keys sort as ids do.

* `asTable_set_ofRun`, `asTable_remove_ofRun`, `asTable_nextId`: what the calls
  of a store do to its table;
* `mem_index_iff`, `pairwise_lt_index`: the ids that a scan finds.
-/

namespace PerfReport

/-- A database that began empty and was then used in any way. One that is not
durable was not opened again. -/
inductive Database.Used {δ : Type} [Database δ] (durable : Bool) : δ → Prop
  | empty : Used durable (empty durable)
  | set {db : δ} (key value : Text) : Used durable db → Used durable (set db key value)
  | remove {db : δ} (key : Text) : Used durable db → Used durable (remove db key)
  | reopen {db : δ} : Used durable db → durable = true → Used durable (reopen db)

open Database in
/-- What a database is relied on for: it maps keys to values, it goes through
its keys in ascending order, and a durable one has the same entries after it
was opened again. The last two are asked of databases that began empty. -/
class LawfulDatabase (δ : Type) [Database δ] : Prop where
  find?_empty (durable : Bool) (key : Text) : find? (empty durable : δ) key = none
  find?_set (db : δ) (key value k : Text) :
    find? (set db key value) k = if k = key then some value else find? db k
  find?_remove (db : δ) (key k : Text) :
    find? (remove db key) k = if k = key then none else find? db k
  mem_scan_iff (db : δ) (first : UInt8) (key : Text) :
    key ∈ scan db first ↔ key.head? = some first ∧ find? db key ≠ none
  pairwise_scan {durable : Bool} {db : δ} : Used durable db → ∀ first,
    (scan db first).Pairwise (· < ·)
  find?_reopen {db : δ} : Used true db → ∀ key, find? (reopen db) key = find? db key

namespace Database

variable {δ : Type} [Database δ]

/-! ## Runs and counter -/

def asTable (db : δ) : RunTable := ⟨fun id => find? db (Key.ofRun id), lastId db⟩

/-- The table depends on the entries only. -/
theorem asTable_congr {db db' : δ} (h : ∀ key, find? db' key = find? db key) :
    asTable db' = asTable db := by
  simp only [asTable, lastId, h]

/-- The counter depends on its own entry only. -/
theorem lastId_congr {db db' : δ} (h : find? db' Key.lastId = find? db Key.lastId) :
    lastId db' = lastId db := by
  rw [lastId, lastId, h]

theorem delete_found {db : δ} {id : UInt64} (hrun : (asTable db).run? id ≠ none) :
    delete db id = .ok (remove db (Key.ofRun id)) := by
  obtain ⟨bytes, hb⟩ := Option.ne_none_iff_exists'.mp hrun
  have hb : find? db (Key.ofRun id) = some bytes := hb
  rw [delete, hb]

theorem delete_absent {db : δ} {id : UInt64} (hrun : (asTable db).run? id = none) :
    delete db id = .error .notFound := by
  have hrun : find? db (Key.ofRun id) = none := hrun
  rw [delete, hrun]

variable [LawfulDatabase δ]

open LawfulDatabase

theorem asTable_empty (durable : Bool) : asTable (empty durable : δ) = .empty := by
  simp only [asTable, lastId, find?_empty]
  rfl

theorem asTable_set_ofRun (db : δ) (id : UInt64) (bytes : Text) :
    asTable (set db (Key.ofRun id) bytes) = (asTable db).put id bytes := by
  ext1
  · funext k
    show find? (set db (Key.ofRun id) bytes) (Key.ofRun k) = _
    simp only [find?_set, Key.ofRun_inj]
    rfl
  · apply lastId_congr
    rw [find?_set, if_neg (Key.ofRun_ne_lastId id).symm]

theorem asTable_remove_ofRun (db : δ) (id : UInt64) :
    asTable (remove db (Key.ofRun id)) = (asTable db).drop id := by
  ext1
  · funext k
    show find? (remove db (Key.ofRun id)) (Key.ofRun k) = _
    simp only [find?_remove, Key.ofRun_inj]
    rfl
  · apply lastId_congr
    rw [find?_remove, if_neg (Key.ofRun_ne_lastId id).symm]

theorem asTable_nextId (db : δ) : asTable (nextId db).2 = (asTable db).draw := by
  ext1
  · funext k
    show find? (set db Key.lastId _) (Key.ofRun k) = _
    rw [find?_set, if_neg (Key.ofRun_ne_lastId k)]
    rfl
  · show lastId (set db Key.lastId (Word.big 8 (lastId db + 1).toNat)) = lastId db + 1
    rw [lastId, find?_set, if_pos rfl]
    simp only [Key.bigValue_ofRun, UInt64.ofNat_toNat]

/-! ## The ids in order -/

/-- A scan finds the run keys and nothing else. -/
theorem mem_index_iff (db : δ) (id : UInt64) :
    id ∈ index db ↔ find? db (Key.ofRun id) ≠ none := by
  rw [index, List.mem_filterMap]
  constructor
  · rintro ⟨key, hkey, hid⟩
    obtain ⟨hscan, hrun⟩ := List.mem_filter.mp hkey
    obtain ⟨id', rfl⟩ := (Key.isRun_iff key).mp hrun
    rw [Key.runId?_ofRun, Option.some.injEq] at hid
    rw [← hid]
    exact ((mem_scan_iff db Key.runMark _).mp hscan).2
  · intro hkey
    have hscan : Key.ofRun id ∈ scan db Key.runMark :=
      (mem_scan_iff db Key.runMark _).mpr ⟨rfl, hkey⟩
    exact ⟨Key.ofRun id, List.mem_filter.mpr ⟨hscan, Key.isRun_ofRun id⟩, Key.runId?_ofRun id⟩

theorem pairwise_lt_index {durable : Bool} {db : δ} (h : Used durable db) :
    (index db).Pairwise (· < ·) := by
  have hkeys : ((scan db Key.runMark).filter Key.isRun).Pairwise (· < ·) :=
    (pairwise_scan h Key.runMark).filter _
  rw [index, List.pairwise_filterMap]
  refine hkeys.imp_of_mem ?_
  intro k l hk hl hlt a ha b hb
  obtain ⟨a', rfl⟩ := (Key.isRun_iff k).mp (List.mem_filter.mp hk).2
  obtain ⟨b', rfl⟩ := (Key.isRun_iff l).mp (List.mem_filter.mp hl).2
  rw [Key.runId?_ofRun, Option.some.injEq] at ha hb
  rw [← ha, ← hb]
  exact (Key.ofRun_lt_ofRun_iff a' b').mp hlt

/-- **Databases are stores of runs.** -/
instance : LawfulRunStore δ where
  table := asTable
  Valid := Used
  get_eq _ _ := rfl
  put_eq h id bytes := ⟨_, rfl, h.set _ bytes, asTable_set_ofRun _ id bytes⟩
  delete_eq h id hrun := ⟨_, delete_found hrun, h.remove _, asTable_remove_ofRun _ id⟩
  delete_absent _ _ hrun := delete_absent hrun
  index_eq h := ⟨_, rfl, pairwise_lt_index h, mem_index_iff _⟩
  nextId_eq h := ⟨_, rfl, h.set _ _, asTable_nextId _⟩
  reopen_eq h := ⟨h.reopen rfl, asTable_congr (find?_reopen h)⟩

end Database

end PerfReport
