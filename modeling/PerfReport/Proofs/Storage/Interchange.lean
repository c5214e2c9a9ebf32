import PerfReport.Proofs.Storage.Keyed

/-!
# Stores are interchangeable

A store in memory and one in a database cannot be told apart by anything that
is asked of them while they are open. What a request does is said once, about
tables: `Served`. It leaves no choice, and every store obeys it.

* `Visits`, `visitFrom_visits`: a visit goes through the ids in order, up to the
  call that fails;
* `Served.unique`: the table and the request determine the answer;
* `serve_served`, `serveAll_transcript`: one request, and any sequence of them;
* `stores_interchangeable`: so both kinds of stores answer alike, and the
  counter that one of them keeps among its runs is never one of them.
-/

namespace PerfReport

/-! ## Visits -/

/-- A visit of ids, after those `before` it were visited, latest first: which
ids the callback is called on, and with which error it ends the visit. -/
inductive Visits {ε : Type} (callback : List UInt64 → UInt64 → Option ε) :
    (before ids called : List UInt64) → Option ε → Prop
  | done (before : List UInt64) : Visits callback before [] [] none
  | stopped {before : List UInt64} {id : UInt64} {e : ε} (ids : List UInt64) :
      callback before id = some e → Visits callback before (id :: ids) [id] (some e)
  | passed {before ids called : List UInt64} {id : UInt64} {r : Option ε} :
      callback before id = none → Visits callback (id :: before) ids called r →
      Visits callback before (id :: ids) (id :: called) r

section Visits

variable {ε : Type} {callback : List UInt64 → UInt64 → Option ε}
  {before ids called called' : List UInt64} {r r' : Option ε}

theorem Visits.isPrefix (h : Visits callback before ids called r) : called <+: ids := by
  induction h with
  | done before => exact List.prefix_rfl
  | @stopped before id e ids _ => exact ⟨ids, rfl⟩
  | @passed before ids called id r _ _ ih => exact (List.prefix_cons_inj id).mpr ih

theorem Visits.unique (h : Visits callback before ids called r)
    (h' : Visits callback before ids called' r') : called = called' ∧ r = r' := by
  induction h generalizing called' r' with
  | done before =>
    cases h'
    exact ⟨rfl, rfl⟩
  | stopped ids he =>
    cases h' with
    | stopped _ he' => exact ⟨rfl, he.symm.trans he'⟩
    | passed hn => cases he.symm.trans hn
  | passed hn _ ih =>
    cases h' with
    | stopped _ he => cases he.symm.trans hn
    | passed _ hrest =>
      obtain ⟨rfl, rfl⟩ := ih hrest
      exact ⟨rfl, rfl⟩

theorem visitFrom_visits (callback : List UInt64 → UInt64 → Option ε) (before ids : List UInt64) :
    ∃ called r, visitFrom callback before ids = (before.reverse ++ called, r) ∧
      Visits callback before ids called r := by
  -- the ids before are put in front of what the rest of the visit calls
  induction ids generalizing before with
  | nil => exact ⟨[], none, by simp [visitFrom], .done before⟩
  | cons id ids ih =>
    cases hc : callback before id with
    | some e => exact ⟨[id], some e, by simp [visitFrom, hc], .stopped ids hc⟩
    | none =>
      obtain ⟨called, r, hvisit, hvisits⟩ := ih (id :: before)
      exact ⟨id :: called, r, by simp [visitFrom, hc, hvisit], .passed hc hvisits⟩

end Visits

/-! ## Requests -/

/-- What is asked of an open store. A callback learns which ids it has seen
and may answer any call with an error. -/
inductive StoreRequest (ε : Type)
  | put (id : UInt64) (bytes : Text)
  | get (id : UInt64)
  | delete (id : UInt64)
  | visit (callback : List UInt64 → UInt64 → Option ε)
  | nextId

inductive StoreAnswer (ε : Type)
  | put (r : Except StoreError Unit)
  | got (r : Except StoreError Text)
  | deleted (r : Except StoreError Unit)
  /-- The ids that the callback was called on, and its error. -/
  | visited (r : Except StoreError (List UInt64 × Option ε))
  | drew (r : Except StoreError UInt64)

section Serve

variable {σ ε : Type} [RunStore σ]

/-- The answer to a request, and the store after it. -/
def serve (s : σ) : StoreRequest ε → StoreAnswer ε × σ
  | .put id bytes =>
    match RunStore.put s id bytes with
    | .ok s' => (.put (.ok ()), s')
    | .error e => (.put (.error e), s)
  | .get id => (.got (RunStore.get s id), s)
  | .delete id =>
    match RunStore.delete s id with
    | .ok s' => (.deleted (.ok ()), s')
    | .error e => (.deleted (.error e), s)
  | .visit callback => (.visited ((RunStore.index s).map (visitFrom callback [])), s)
  | .nextId =>
    match RunStore.nextId s with
    | .ok (id, s') => (.drew (.ok id), s')
    | .error e => (.drew (.error e), s)

/-- The answers to requests in order, and the store after them. -/
def serveAll (s : σ) : List (StoreRequest ε) → List (StoreAnswer ε) × σ
  | [] => ([], s)
  | r :: rs => ((serve s r).1 :: (serveAll (serve s r).2 rs).1, (serveAll (serve s r).2 rs).2)

end Serve

/-! ## What a request does to a table -/

/-- The answer to a request and the table after it, from the table before. -/
inductive Served {ε : Type} : RunTable → StoreRequest ε → StoreAnswer ε → RunTable → Prop
  | put (t : RunTable) (id : UInt64) (bytes : Text) :
      Served t (.put id bytes) (.put (.ok ())) (t.put id bytes)
  | get (t : RunTable) (id : UInt64) : Served t (.get id) (.got (t.get id)) t
  | deleted (t : RunTable) (id : UInt64) : t.run? id ≠ none →
      Served t (.delete id) (.deleted (.ok ())) (t.drop id)
  | absent (t : RunTable) (id : UInt64) : t.run? id = none →
      Served t (.delete id) (.deleted (.error .notFound)) t
  | visited {t : RunTable} {callback : List UInt64 → UInt64 → Option ε}
      {ids called : List UInt64} {r : Option ε} :
      ids.Pairwise (· < ·) → (∀ id, id ∈ ids ↔ t.run? id ≠ none) →
      Visits callback [] ids called r →
      Served t (.visit callback) (.visited (.ok (called, r))) t
  | drew (t : RunTable) : Served t .nextId (.drew (.ok (t.last + 1))) t.draw

/-- Requests in order with their answers. -/
inductive Transcript {ε : Type} :
    RunTable → List (StoreRequest ε) → List (StoreAnswer ε) → RunTable → Prop
  | nil (t : RunTable) : Transcript t [] [] t
  | cons {t t' t'' : RunTable} {r : StoreRequest ε} {rs : List (StoreRequest ε)}
      {a : StoreAnswer ε} {as : List (StoreAnswer ε)} :
      Served t r a t' → Transcript t' rs as t'' → Transcript t (r :: rs) (a :: as) t''

section Tables

variable {ε : Type} {t u v : RunTable}

/-- A request leaves no choice: the stored ids have one ascending order. -/
theorem Served.unique {r : StoreRequest ε} {a b : StoreAnswer ε} (h : Served t r a u)
    (h' : Served t r b v) : a = b ∧ u = v := by
  cases h with
  | put | get | drew =>
    cases h'
    exact ⟨rfl, rfl⟩
  | deleted id hrun =>
    cases h' with
    | deleted => exact ⟨rfl, rfl⟩
    | absent _ hnone => exact absurd hnone hrun
  | absent id hnone =>
    cases h' with
    | deleted _ hrun => exact absurd hnone hrun
    | absent => exact ⟨rfl, rfl⟩
  | visited hids hmem hvisits =>
    cases h' with
    | visited hids' hmem' hvisits' =>
      obtain rfl := eq_of_ascending hids hids' fun id => (hmem id).trans (hmem' id).symm
      obtain ⟨rfl, rfl⟩ := hvisits.unique hvisits'
      exact ⟨rfl, rfl⟩

theorem Transcript.unique {rs : List (StoreRequest ε)} {as bs : List (StoreAnswer ε)}
    (h : Transcript t rs as u) (h' : Transcript t rs bs v) : as = bs ∧ u = v := by
  induction h generalizing bs v with
  | nil t =>
    cases h'
    exact ⟨rfl, rfl⟩
  | cons hfirst _ ih =>
    cases h' with
    | cons hfirst' hrest' =>
      obtain ⟨rfl, rfl⟩ := hfirst.unique hfirst'
      obtain ⟨rfl, rfl⟩ := ih hrest'
      exact ⟨rfl, rfl⟩

/-- Whatever the callback answers, the ids that it sees ascend. -/
theorem Transcript.ascending {rs : List (StoreRequest ε)} {as : List (StoreAnswer ε)}
    (h : Transcript t rs as u) {seen : List UInt64} {e : Option ε}
    (ha : .visited (.ok (seen, e)) ∈ as) : seen.Pairwise (· < ·) := by
  induction h with
  | nil t => cases ha
  | @cons t t' t'' r rs a as hfirst _ ih =>
    rcases List.mem_cons.mp ha with heq | ha
    · cases hfirst with
      | visited hids _ hvisits =>
        cases heq
        exact hids.sublist hvisits.isPrefix.sublist
      | _ => cases heq
    · exact ih ha

end Tables

/-! ## Stores obey -/

section Lawful

variable {σ ε : Type} [RunStore σ] [LawfulRunStore σ] {d : Bool} {s : σ}

open LawfulRunStore

/-- **One request.** -/
theorem serve_served (h : Valid d s) (r : StoreRequest ε) :
    Valid d (serve s r).2 ∧ Served (table s) r (serve s r).1 (table (serve s r).2) := by
  cases r with
  | put id bytes =>
    obtain ⟨s', hput, hvalid, htable⟩ := put_eq h id bytes
    simp only [serve, hput, htable]
    exact ⟨hvalid, .put _ id bytes⟩
  | get id =>
    simp only [serve, get_eq h]
    exact ⟨h, .get _ id⟩
  | delete id =>
    by_cases hrun : (table s).run? id = none
    · simp only [serve, delete_absent h id hrun]
      exact ⟨h, .absent _ id hrun⟩
    · obtain ⟨s', hdelete, hvalid, htable⟩ := delete_eq h id hrun
      simp only [serve, hdelete, htable]
      exact ⟨hvalid, .deleted _ id hrun⟩
  | visit callback =>
    obtain ⟨ids, hindex, hids, hmem⟩ := index_eq h
    obtain ⟨called, r, hvisit, hvisits⟩ := visitFrom_visits callback [] ids
    simp only [serve, hindex, Except.map, hvisit, List.reverse_nil, List.nil_append]
    exact ⟨h, .visited hids hmem hvisits⟩
  | nextId =>
    obtain ⟨s', hnext, hvalid, htable⟩ := nextId_eq h
    simp only [serve, hnext, htable]
    exact ⟨hvalid, .drew _⟩

/-- **Any sequence of requests.**  The induction is on the requests still to
be served. -/
theorem serveAll_transcript (h : Valid d s) (rs : List (StoreRequest ε)) :
    Valid d (serveAll s rs).2 ∧
      Transcript (table s) rs (serveAll s rs).1 (table (serveAll s rs).2) := by
  induction rs generalizing s with
  | nil => exact ⟨h, .nil _⟩
  | cons r rs ih =>
    obtain ⟨hvalid, hserved⟩ := serve_served h r
    obtain ⟨hvalid', hrest⟩ := ih hvalid
    exact ⟨hvalid', .cons hserved hrest⟩

end Lawful

/-! ## The counter among the runs -/

namespace Database

variable {δ ε : Type} [Database δ] [LawfulDatabase δ]

open LawfulDatabase

/-- A scan for runs passes the counter by. -/
theorem lastId_not_mem_scan (db : δ) : Key.lastId ∉ scan db Key.runMark := by
  intro h
  have hmark := ((mem_scan_iff db Key.runMark Key.lastId).mp h).1
  revert hmark
  decide

/-- Nothing but drawing an id touches the counter. -/
theorem find?_lastId_serve (db : δ) {r : StoreRequest ε} (hr : r ≠ .nextId) :
    find? (serve db r).2 Key.lastId = find? db Key.lastId := by
  cases r with
  | put id bytes =>
    show find? (set db (Key.ofRun id) bytes) Key.lastId = _
    rw [find?_set, if_neg (Key.ofRun_ne_lastId id).symm]
  | get id => rfl
  | delete id =>
    by_cases hrun : (asTable db).run? id = none
    · have hdelete : RunStore.delete db id = .error .notFound := delete_absent hrun
      simp only [serve, hdelete]
    · have hdelete : RunStore.delete db id = .ok (remove db (Key.ofRun id)) := delete_found hrun
      simp only [serve, hdelete]
      rw [find?_remove, if_neg (Key.ofRun_ne_lastId id).symm]
  | visit callback => rfl
  | nextId => exact absurd rfl hr

/-- Drawing an id touches nothing else. -/
theorem find?_serve_nextId (db : δ) {key : Text} (hkey : key ≠ Key.lastId) :
    find? (serve db (.nextId : StoreRequest ε)).2 key = find? db key := by
  show find? (set db Key.lastId _) key = _
  rw [find?_set, if_neg hkey]

end Database

/-- **Stores are interchangeable.**  Put any requests to two empty stores, one
in memory and one in a database. Their answers are the same, and they are those
of a table: bytes and absent runs, the ids of a visit in ascending order up to
the call that the callback fails, and the ids that are drawn. In a database no
run has the key of the counter, no scan for runs comes by it, no request about
runs changes it, and drawing an id changes nothing else. -/
theorem stores_interchangeable {δ ε : Type} [Database δ] [LawfulDatabase δ] (durable : Bool)
    (rs : List (StoreRequest ε)) :
    (serveAll ({} : MemoryStore) rs).1 = (serveAll (Database.empty durable : δ) rs).1 ∧
    (∃ t, Transcript .empty rs (serveAll ({} : MemoryStore) rs).1 t) ∧
    (∀ seen e, .visited (.ok (seen, e)) ∈ (serveAll ({} : MemoryStore) rs).1 →
      seen.Pairwise (· < ·)) ∧
    ∀ db : δ,
      (∀ id, Key.ofRun id ≠ Key.lastId) ∧ Key.lastId ∉ Database.scan db Key.runMark ∧
      (∀ id, id ∈ Database.index db ↔ Database.find? db (Key.ofRun id) ≠ none) ∧
      (∀ r : StoreRequest ε, r ≠ .nextId →
        Database.find? (serve db r).2 Key.lastId = Database.find? db Key.lastId) ∧
      ∀ key, key ≠ Key.lastId →
        Database.find? (serve db (.nextId : StoreRequest ε)).2 key = Database.find? db key := by
  have hmemory : LawfulRunStore.Valid false ({} : MemoryStore) :=
    ⟨rfl, rfl, List.Pairwise.nil⟩
  have hdatabase : LawfulRunStore.Valid durable (Database.empty durable : δ) :=
    Database.Used.empty
  obtain ⟨-, htranscript⟩ := serveAll_transcript hmemory rs
  obtain ⟨-, htranscript'⟩ := serveAll_transcript hdatabase rs
  have hempty : LawfulRunStore.table (Database.empty durable : δ) = .empty :=
    Database.asTable_empty durable
  rw [hempty] at htranscript'
  refine ⟨(htranscript.unique htranscript').1, ⟨_, htranscript⟩, ?_, ?_⟩
  · intro seen e ha
    exact htranscript.ascending ha
  · intro db
    exact ⟨Key.ofRun_ne_lastId, Database.lastId_not_mem_scan db, Database.mem_index_iff db,
      fun r hr => Database.find?_lastId_serve db hr,
      fun key hkey => Database.find?_serve_nextId db hkey⟩

/-- Two runs, the later id first, and a callback that fails on its second call. -/
def twoRuns : List (StoreRequest Unit) :=
  [.put 5 [1], .nextId, .put 3 [2], .visit fun seen _ => if seen.isEmpty then none else some ()]

theorem twoRuns_visited :
    .visited (.ok ([3, 5], some ())) ∈ (serveAll ({} : MemoryStore) twoRuns).1 ∧
    ([3, 5] : List UInt64).Pairwise (· < ·) := by
  obtain ⟨halike, -, hascending, -⟩ :=
    stores_interchangeable (δ := KeyedStore) true twoRuns
  have hvisited : .visited (.ok ([3, 5], some ())) ∈
      (serveAll (Database.empty true : KeyedStore) twoRuns).1 :=
    .tail _ (.tail _ (.tail _ (.head _)))
  rw [← halike] at hvisited
  exact ⟨hvisited, hascending [3, 5] (some ()) hvisited⟩

end PerfReport
