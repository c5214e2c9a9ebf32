import PerfReport.Proofs.Storage.Database
import PerfReport.Storage.Keyed

/-!
# Sorted lists are databases

The entries stay in ascending order of keys, whatever is set and removed.

* `lookup_insertEntry`, `pairwise_insertEntry`: one entry more;
* `sorted_of_used`: any number of steps;
* `run_keys_bijective`: keys of runs are in bijection with ids, in order, and no
  other key is one.
-/

namespace PerfReport.KeyedStore

theorem text_lt_of_not_lt {t u : Text} (h : ¬ t < u) (hne : t ≠ u) : u < t :=
  (List.le_iff_lt_or_eq.mp (List.not_lt.mp h)).resolve_right hne.symm

theorem lookup_insertEntry (key value : Text) (entries : List (Text × Text)) (k : Text) :
    (insertEntry key value entries).lookup k =
      if k = key then some value else entries.lookup k := by
  induction entries with
  | nil => rw [insertEntry, lookup_cons_if]
  | cons e entries ih =>
    rw [insertEntry]
    split
    · rw [lookup_cons_if]
    · split
      · next hkey =>
        rw [lookup_cons_if, lookup_cons_if, ← hkey]
        split <;> rfl
      · next hkey =>
        rw [lookup_cons_if, ih, lookup_cons_if]
        by_cases hk : k = e.1
        · simp [hk, Ne.symm hkey]
        · simp [hk]

theorem mem_keys_insertEntry {key value k : Text} {entries : List (Text × Text)}
    (h : k ∈ (insertEntry key value entries).map Prod.fst) :
    k = key ∨ k ∈ entries.map Prod.fst := by
  rw [← lookup_ne_none_iff, lookup_insertEntry] at h
  by_cases hk : k = key
  · exact .inl hk
  · rw [if_neg hk, lookup_ne_none_iff] at h
    exact .inr h

theorem pairwise_insertEntry (key value : Text) (entries : List (Text × Text))
    (h : (entries.map Prod.fst).Pairwise (· < ·)) :
    ((insertEntry key value entries).map Prod.fst).Pairwise (· < ·) := by
  induction entries with
  | nil => simp [insertEntry]
  | cons e entries ih =>
    obtain ⟨hfirst, hrest⟩ := List.pairwise_cons.mp h
    rw [insertEntry]
    split
    · next hlt =>
      refine List.pairwise_cons.mpr ⟨fun k hk => ?_, h⟩
      rcases List.mem_cons.mp hk with rfl | hk
      · exact hlt
      · exact List.lt_trans hlt (hfirst k hk)
    · next hlt =>
      split
      · next hkey =>
        subst hkey
        exact List.pairwise_cons.mpr ⟨hfirst, hrest⟩
      · next hkey =>
        refine List.pairwise_cons.mpr ⟨fun k hk => ?_, ih hrest⟩
        rcases mem_keys_insertEntry hk with rfl | hk
        · exact text_lt_of_not_lt hlt hkey
        · exact hfirst k hk

/-- In ascending order of keys. -/
def Sorted (s : KeyedStore) : Prop := (s.entries.map Prod.fst).Pairwise (· < ·)

theorem Sorted.set {s : KeyedStore} (h : s.Sorted) (key value : Text) : (s.set key value).Sorted :=
  pairwise_insertEntry key value s.entries h

theorem Sorted.remove {s : KeyedStore} (h : s.Sorted) (key : Text) : (s.remove key).Sorted :=
  h.sublist (List.filter_sublist.map Prod.fst)

theorem find?_set (s : KeyedStore) (key value k : Text) :
    (s.set key value).find? k = if k = key then some value else s.find? k :=
  lookup_insertEntry key value s.entries k

theorem find?_remove (s : KeyedStore) (key k : Text) :
    (s.remove key).find? k = if k = key then none else s.find? k :=
  lookup_filter_ne key s.entries k

/-- Whatever was done to a list, it is sorted, and as durable as it was. -/
theorem sorted_of_used {durable : Bool} {s : KeyedStore} (h : Database.Used durable s) :
    s.durable = durable ∧ s.Sorted := by
  induction h with
  | empty => exact ⟨rfl, List.Pairwise.nil⟩
  | set key value _ ih => exact ⟨ih.1, ih.2.set key value⟩
  | remove key _ ih => exact ⟨ih.1, ih.2.remove key⟩
  | @reopen s _ hd ih =>
    have hopen : Database.reopen s = s := if_pos (ih.1.trans hd)
    rw [hopen]
    exact ih

theorem mem_scan_iff (s : KeyedStore) (first : UInt8) (key : Text) :
    key ∈ s.scan first ↔ key.head? = some first ∧ s.find? key ≠ none := by
  rw [scan, List.mem_filter, ← lookup_ne_none_iff, beq_iff_eq, and_comm]
  rfl

/-- **Sorted lists are databases.** -/
instance : LawfulDatabase KeyedStore where
  find?_empty _ _ := rfl
  find?_set := find?_set
  find?_remove := find?_remove
  mem_scan_iff := mem_scan_iff
  pairwise_scan h _ := (sorted_of_used h).2.filter _
  find?_reopen {s} h key := by
    have hopen : Database.reopen s = s := if_pos (sorted_of_used h).1
    rw [hopen]

/-- **Run keys.**  Every id is read back from its key, keys sort as the ids do,
and the keys of runs are those that are long enough for an id and are the key of
the id they hold. The key of the counter is none of them, and the ids that a
scan of any table finds are those whose keys it holds. -/
theorem run_keys_bijective :
    (∀ a b : UInt64, Key.runId? (Key.ofRun a) = some a ∧ Key.isRun (Key.ofRun a) = true ∧
      (Key.ofRun a < Key.ofRun b ↔ a < b)) ∧
    (∀ key : Text, Key.isRun key = true ↔
      9 ≤ key.length ∧ ∃ id, Key.runId? key = some id ∧ key = Key.ofRun id) ∧
    (Key.isRun Key.lastId = false ∧ ∀ id, Key.ofRun id ≠ Key.lastId) ∧
    ∀ (s : KeyedStore) (id : UInt64),
      id ∈ Database.index s ↔ Key.ofRun id ∈ s.entries.map Prod.fst := by
  refine ⟨?_, ?_, ⟨Key.isRun_lastId, Key.ofRun_ne_lastId⟩, ?_⟩
  · intro a b
    exact ⟨Key.runId?_ofRun a, Key.isRun_ofRun a, Key.ofRun_lt_ofRun_iff a b⟩
  · intro key
    rw [Key.isRun_iff]
    constructor
    · rintro ⟨id, rfl⟩
      have hlen : 9 ≤ (Key.ofRun id).length := by simp [Key.ofRun]
      exact ⟨hlen, id, Key.runId?_ofRun id, rfl⟩
    · rintro ⟨-, id, -, hkey⟩
      exact ⟨id, hkey⟩
  · intro s id
    exact (Database.mem_index_iff s id).trans (lookup_ne_none_iff s.entries (Key.ofRun id))

end PerfReport.KeyedStore
