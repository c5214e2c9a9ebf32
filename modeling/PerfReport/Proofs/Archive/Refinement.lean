import PerfReport.Proofs.Archive.History
import PerfReport.Proofs.Snapshot.RoundTrip
import PerfReport.Proofs.Storage.Keyed

/-!
# The archive is a map

Over any history, with any calls failing, an archive holds the runs that were
saved and not deleted since, each under its own id.

* `Live`: saved and not deleted since, by the events alone;
* `Numbered`, `Stored`: what the table has to do with the events;
* `Numbered.step`, `Stored.step`: one step keeps both;
* `Tracks.foldl`, `history_tracks`: so does every history;
* `archive_refines_map`: what the next step of any history does.
-/

namespace PerfReport

/-! ## Events -/

namespace Event

/-- Answered with an error. -/
def Failed : Event → Prop
  | .saved _ (.error _) | .got _ (.error _) | .deleted _ (.error _) | .listed (.error _)
  | .drew (.error _) => True
  | _ => False

def handedOut? : Event → Option UInt64
  | .saved _ (.ok id) | .drew (.ok id) => some id
  | _ => none

end Event

/-- The ids that were handed out, in order. -/
def handedOut (events : List Event) : List UInt64 := events.filterMap Event.handedOut?

/-- A run was saved under `id` and not deleted since; `s` is what was saved. -/
def Live (events : List Event) (id : UInt64) (s : Snapshot) : Prop :=
  ∃ before saved after, events = before ++ .saved saved (.ok id) :: after ∧
    s = { saved with id := id } ∧ .deleted id (.ok ()) ∉ after

theorem Live.id_eq {events : List Event} {id : UInt64} {s : Snapshot} (h : Live events id s) :
    s.id = id := by
  obtain ⟨before, saved, after, -, rfl, -⟩ := h
  rfl

theorem Live.handedOut {events : List Event} {id : UInt64} {s : Snapshot}
    (h : Live events id s) : id ∈ handedOut events := by
  obtain ⟨before, saved, after, rfl, -, -⟩ := h
  simp [PerfReport.handedOut, Event.handedOut?]

/-- One event more: it saves the run, or it does not delete it. -/
theorem live_snoc (events : List Event) (e : Event) (id : UInt64) (s : Snapshot) :
    Live (events ++ [e]) id s ↔
      (∃ saved, e = .saved saved (.ok id) ∧ s = { saved with id := id }) ∨
        (Live events id s ∧ e ≠ .deleted id (.ok ())) := by
  constructor
  · rintro ⟨before, saved, after, hevents, rfl, hafter⟩
    rcases List.eq_nil_or_concat after with rfl | ⟨after, last, rfl⟩
    · obtain ⟨-, he⟩ := List.append_inj' hevents rfl
      exact .inl ⟨saved, by simpa using he, rfl⟩
    · have hsplit : events ++ [e] = (before ++ .saved saved (.ok id) :: after) ++ [last] := by
        simpa using hevents
      obtain ⟨rfl, he⟩ := List.append_inj' hsplit rfl
      cases he
      simp only [List.concat_eq_append, List.mem_append, List.mem_singleton, not_or] at hafter
      exact .inr ⟨⟨before, saved, after, rfl, rfl, hafter.1⟩, Ne.symm hafter.2⟩
  · rintro (⟨saved, rfl, rfl⟩ | ⟨⟨before, saved, after, rfl, rfl, hafter⟩, he⟩)
    · exact ⟨events, saved, [], rfl, rfl, by simp⟩
    · refine ⟨before, saved, after ++ [e], by simp, rfl, ?_⟩
      simp only [List.mem_append, List.mem_singleton, not_or]
      exact ⟨hafter, Ne.symm he⟩

/-! ## Effects on ids and on runs -/

section Effects

variable {drawn : Bool} {t t' : RunTable} {e : Event}

theorem Effect.last_eq (h : Effect drawn t e t') :
    t'.last = if drawn then t.last + 1 else t.last := by
  cases h with
  | notSaved drawn t s e => cases drawn <;> rfl
  | _ => rfl

theorem Effect.handedOut_eq (h : Effect drawn t e t') {id : UInt64} (he : e.handedOut? = some id) :
    drawn = true ∧ id = t.last + 1 := by
  cases h with
  | saved t s | drew t =>
    cases he
    exact ⟨rfl, rfl⟩
  | _ => cases he

/-- Runs are added under the next id and dropped one at a time. -/
theorem Effect.run?_cases (h : Effect drawn t e t') :
    (∃ s, e = .saved s (.ok (t.last + 1)) ∧
      t'.run? = (t.put (t.last + 1) { s with id := t.last + 1 }.encode).run?) ∨
    (∃ id, e = .deleted id (.ok ()) ∧ t.run? id ≠ none ∧ t'.run? = (t.drop id).run?) ∨
    ((∀ s id, e ≠ .saved s (.ok id)) ∧ (∀ id, e ≠ .deleted id (.ok ())) ∧ t'.run? = t.run?) := by
  cases h with
  | saved t s => exact .inl ⟨s, rfl, rfl⟩
  | deleted t id hrun => exact .inr (.inl ⟨id, rfl, hrun, rfl⟩)
  | notSaved drawn t s e => cases drawn <;> exact .inr (.inr ⟨nofun, nofun, rfl⟩)
  | _ => exact .inr (.inr ⟨nofun, nofun, rfl⟩)

end Effects

/-! ## The ids -/

/-- The counter counts the ids that were drawn, and those that were handed
out are in ascending order. -/
structure Numbered (events : List Event) (drawn : Nat) (t : RunTable) : Prop where
  count : t.last.toNat = drawn
  ascending : (handedOut events).Pairwise (· < ·)
  bounded : ∀ id ∈ handedOut events, id.toNat ≤ drawn

theorem numbered_empty : Numbered [] 0 RunTable.empty :=
  ⟨rfl, List.Pairwise.nil, nofun⟩

theorem handedOut_snoc (events : List Event) (e : Event) :
    handedOut (events ++ [e]) = handedOut events ++ e.handedOut?.toList := by
  cases he : e.handedOut? <;> simp [handedOut, he]

theorem Numbered.step {events : List Event} {n : Nat} {drawn : Bool} {t t' : RunTable} {e : Event}
    (h : Numbered events n t) (he : Effect drawn t e t') (hn : n + drawn.toNat < UInt64.size) :
    Numbered (events ++ [e]) (n + drawn.toNat) t' ∧
      ∀ id, e.handedOut? = some id → id.toNat = n + drawn.toNat := by
  have hcount : t'.last.toNat = n + drawn.toNat := by
    rw [he.last_eq]
    cases drawn with
    | false => exact h.count
    | true =>
      have hnext : (t.last + 1).toNat = (t.last.toNat + 1) % UInt64.size := UInt64.toNat_add ..
      rw [if_pos rfl, hnext, h.count]
      exact Nat.mod_eq_of_lt hn
  have hnew : ∀ id, e.handedOut? = some id → id.toNat = n + drawn.toNat := by
    intro id hid
    obtain ⟨rfl, rfl⟩ := he.handedOut_eq hid
    rw [← hcount, he.last_eq]
    rfl
  have hmem : ∀ id ∈ e.handedOut?.toList, id.toNat = n + drawn.toNat ∧ drawn = true := by
    intro id hid
    have hid := Option.mem_toList.mp hid
    exact ⟨hnew id hid, (he.handedOut_eq hid).1⟩
  refine ⟨⟨hcount, ?_, ?_⟩, hnew⟩
  · rw [handedOut_snoc, List.pairwise_append]
    refine ⟨h.ascending, ?_, ?_⟩
    · cases e.handedOut? <;> simp
    · intro a ha b hb
      obtain ⟨hb, hdrawn⟩ := hmem b hb
      have ha := h.bounded a ha
      rw [hdrawn, Bool.toNat_true] at hb
      rw [UInt64.lt_iff_toNat_lt]
      omega
  · intro id hid
    rw [handedOut_snoc, List.mem_append] at hid
    rcases hid with hid | hid
    · exact Nat.le_add_right_of_le (h.bounded id hid)
    · exact Nat.le_of_eq (hmem id hid).1

/-! ## The runs -/

/-- The table holds the live runs as they were saved, and nothing else. -/
structure Stored (events : List Event) (t : RunTable) : Prop where
  stored : ∀ id s, Live events id s → t.run? id = some s.encode
  live : ∀ id, t.run? id ≠ none → ∃ s, Live events id s
  readable : ∀ id s, Live events id s → Snapshot.decode s.encode = .ok s

theorem stored_empty : Stored [] RunTable.empty := by
  have hnone (id : UInt64) (s : Snapshot) : ¬ Live [] id s := by
    rintro ⟨before, saved, after, hevents, -, -⟩
    simp at hevents
  exact ⟨fun id s h => absurd h (hnone id s), fun id h => absurd rfl h,
    fun id s h => absurd h (hnone id s)⟩

theorem Stored.unique {events : List Event} {t : RunTable} (h : Stored events t) {id : UInt64}
    {s s' : Snapshot} (hs : Live events id s) (hs' : Live events id s') : s = s' := by
  have hbytes : s.encode = s'.encode :=
    Option.some.inj ((h.stored id s hs).symm.trans (h.stored id s' hs'))
  have hread := h.readable id s hs
  rw [hbytes, h.readable id s' hs'] at hread
  exact (Except.ok.inj hread).symm

theorem Stored.run?_eq_none {events : List Event} {t : RunTable} (h : Stored events t)
    {id : UInt64} (hid : ∀ s, ¬ Live events id s) : t.run? id = none := by
  cases hrun : t.run? id with
  | none => rfl
  | some bytes =>
    obtain ⟨s, hs⟩ := h.live id (by simp [hrun])
    exact absurd hs (hid s)

/-- What may be asked of an archive: a snapshot to be saved has to have sizes
that can be written and an aggregate in shape, as every operation leaves it. -/
def Request.Storable : Request → Prop
  | .save s => s.Encodable ∧ s.aggregate.Shaped
  | _ => True

/-- A run more, under an id that was never handed out before. -/
theorem Stored.save {events : List Event} {t t' : RunTable} {s : Snapshot} {id : UInt64}
    (h : Stored events t) (hfresh : id ∉ handedOut events)
    (hread : Snapshot.decode { s with id := id }.encode = .ok { s with id := id })
    (hrun : t'.run? = (t.put id { s with id := id }.encode).run?) :
    Stored (events ++ [.saved s (.ok id)]) t' := by
  -- a live run is the new one, or an older one under another id
  have hcases {k : UInt64} {u : Snapshot} (hu : Live (events ++ [.saved s (.ok id)]) k u) :
      (k = id ∧ u = { s with id := id }) ∨ (k ≠ id ∧ Live events k u) := by
    rcases (live_snoc events _ k u).mp hu with ⟨saved, he, rfl⟩ | ⟨hold, -⟩
    · cases he
      exact .inl ⟨rfl, rfl⟩
    · refine .inr ⟨?_, hold⟩
      rintro rfl
      exact hfresh hold.handedOut
  refine ⟨?_, ?_, ?_⟩
  · intro k u hu
    rw [hrun]
    rcases hcases hu with ⟨rfl, rfl⟩ | ⟨hk, hu⟩
    · exact if_pos rfl
    · exact (if_neg hk).trans (h.stored k u hu)
  · intro k hk
    by_cases hid : k = id
    · exact ⟨_, (live_snoc events _ k _).mpr (.inl ⟨s, by rw [hid], rfl⟩)⟩
    · rw [hrun] at hk
      obtain ⟨u, hu⟩ := h.live k (fun hnone => hk ((if_neg hid).trans hnone))
      exact ⟨u, (live_snoc events _ k u).mpr (.inr ⟨hu, nofun⟩)⟩
  · intro k u hu
    rcases hcases hu with ⟨rfl, rfl⟩ | ⟨-, hu⟩
    · exact hread
    · exact h.readable k u hu

theorem Stored.delete {events : List Event} {t t' : RunTable} {id : UInt64}
    (h : Stored events t) (hrun : t'.run? = (t.drop id).run?) :
    Stored (events ++ [.deleted id (.ok ())]) t' := by
  have hcases {k : UInt64} {u : Snapshot} :
      Live (events ++ [.deleted id (.ok ())]) k u ↔ Live events k u ∧ k ≠ id := by
    rw [live_snoc]
    simp [eq_comm (a := id)]
  refine ⟨?_, ?_, ?_⟩
  · intro k u hu
    obtain ⟨hu, hk⟩ := hcases.mp hu
    rw [hrun]
    exact (if_neg hk).trans (h.stored k u hu)
  · intro k hk
    rw [hrun] at hk
    have hid : k ≠ id := fun hid => hk (if_pos hid)
    obtain ⟨u, hu⟩ := h.live k (fun hnone => hk ((if_neg hid).trans hnone))
    exact ⟨u, hcases.mpr ⟨hu, hid⟩⟩
  · intro k u hu
    exact h.readable k u (hcases.mp hu).1

/-- No other event makes a run live or ends one. -/
theorem live_snoc_other (events : List Event) {e : Event} (hsaved : ∀ s id, e ≠ .saved s (.ok id))
    (hdeleted : ∀ id, e ≠ .deleted id (.ok ())) (id : UInt64) (s : Snapshot) :
    Live (events ++ [e]) id s ↔ Live events id s := by
  rw [live_snoc]
  constructor
  · rintro (⟨saved, he, -⟩ | ⟨h, -⟩)
    · exact absurd he (hsaved saved id)
    · exact h
  · intro h
    exact .inr ⟨h, hdeleted id⟩

theorem Stored.step {events : List Event} {n : Nat} {drawn : Bool} {t t' : RunTable} {e : Event}
    (h : Stored events t) (hids : Numbered events n t) (he : Effect drawn t e t')
    (hn : n + drawn.toNat < UInt64.size)
    (hs : ∀ s r, e = .saved s r → s.Encodable ∧ s.aggregate.Shaped) :
    Stored (events ++ [e]) t' := by
  rcases he.run?_cases with ⟨s, rfl, hrun⟩ | ⟨id, rfl, -, hrun⟩ | ⟨hsaved, hdeleted, hrun⟩
  · obtain ⟨hs, hshape⟩ := hs s _ rfl
    have hid := (hids.step he hn).2 (t.last + 1) rfl
    rw [(he.handedOut_eq rfl).1, Bool.toNat_true] at hid
    refine h.save ?_ (Snapshot.decode_encode ?_ hshape) hrun
    · intro hmem
      have := hids.bounded _ hmem
      omega
    · exact ⟨hs.layout, hs.title, hs.sourceCount, hs.sources, hs.arity, hs.kind⟩
  · exact h.delete hrun
  · have hlive := live_snoc_other events hsaved hdeleted
    refine ⟨?_, ?_, ?_⟩
    · intro id s hl
      rw [hrun]
      exact h.stored id s ((hlive id s).mp hl)
    · intro id hid
      rw [hrun] at hid
      obtain ⟨s, hl⟩ := h.live id hid
      exact ⟨s, (hlive id s).mpr hl⟩
    · intro id s hl
      exact h.readable id s ((hlive id s).mp hl)

/-! ## Histories -/

namespace Archive

variable {σ : Type} [RunStore σ]

theorem request_of_saved {a : Archive (Erratic σ)} {step : Step} {s : Snapshot}
    {r : Except Error UInt64} (h : (a.perform step).1 = .saved s r) : step.request = .save s := by
  obtain ⟨failing, request⟩ := step
  cases request with
  | save s' =>
    cases h
    rfl
  | nextId =>
    simp only [perform] at h
    split at h <;> cases h
  | _ => cases h

variable [LawfulRunStore σ] {d : Bool}

/-- The archive and the events so far belong together. -/
structure Tracks (d : Bool) (drawn : Nat) (h : List Event × Archive (Erratic σ)) : Prop where
  ready : h.2.Ready d
  numbered : Numbered h.1 drawn h.2.table
  stored : Stored h.1 h.2.table

theorem Tracks.advance {n : Nat} {h : List Event × Archive (Erratic σ)} (ht : Tracks d n h)
    {step : Step} (hs : step.request.Storable) (hr : step.request = .reopen → d = true)
    (hn : n + step.draws.toNat < UInt64.size) :
    Tracks d (n + step.draws.toNat) (Archive.advance h step) := by
  obtain ⟨hready, heffect⟩ := perform_effect ht.ready step hr
  refine ⟨hready, (ht.numbered.step heffect hn).1, ht.stored.step ht.numbered heffect hn ?_⟩
  intro s r hsaved
  rw [request_of_saved hsaved] at hs
  exact hs

/-- **Histories.**  By induction over the steps still to come. -/
theorem Tracks.foldl {n : Nat} {h : List Event × Archive (Erratic σ)} (ht : Tracks d n h)
    (steps : List Step) (hs : ∀ step ∈ steps, step.request.Storable)
    (hr : ∀ step ∈ steps, step.request = .reopen → d = true)
    (hn : n + Step.drawCount steps < UInt64.size) :
    Tracks d (n + Step.drawCount steps) (steps.foldl Archive.advance h) := by
  induction steps generalizing n h with
  | nil => exact ht
  | cons step steps ih =>
    have hcount : n + Step.drawCount (step :: steps) =
        n + step.draws.toNat + Step.drawCount steps := by
      rw [Step.drawCount_cons]
      omega
    rw [hcount] at hn ⊢
    have hfirst : step ∈ step :: steps := List.mem_cons_self ..
    have hnext := ht.advance (hs step hfirst) (hr step hfirst) (by omega)
    exact ih hnext (fun t hmem => hs t (List.mem_cons_of_mem _ hmem))
      (fun t hmem => hr t (List.mem_cons_of_mem _ hmem)) hn

theorem history_tracks {start : Archive (Erratic σ)} (hready : start.Ready d)
    (hempty : start.table = .empty) {steps : List Step}
    (hs : ∀ step ∈ steps, step.request.Storable)
    (hr : ∀ step ∈ steps, step.request = .reopen → d = true)
    (hn : Step.drawCount steps < UInt64.size) :
    Tracks d (Step.drawCount steps) (history start steps) := by
  have hstart : Tracks d 0 ([], start) := by
    refine ⟨hready, ?_, ?_⟩
    · exact hempty.symm ▸ numbered_empty
    · exact hempty.symm ▸ stored_empty
  rw [← Nat.zero_add (Step.drawCount steps)] at hn ⊢
  exact hstart.foldl steps hs hr hn

/-! ## The next step -/

/-- What a step has to do after `events`; `drawn` ids are drawn with it. -/
structure StepRefines (events : List Event) (a : Archive (Erratic σ)) (step : Step)
    (drawn : Nat) : Prop where
  /-- An id is above all ids before it. -/
  ascending : (handedOut (events ++ [(a.perform step).1])).Pairwise (· < ·)
  /-- Ids that are lost count too. -/
  counted : ∀ id, (a.perform step).1.handedOut? = some id → id.toNat = drawn
  save : step.Calm → ∀ s, step.request = .save s → ∃ id, (a.perform step).1 = .saved s (.ok id)
  nextId : step.Calm → step.request = .nextId → ∃ id, (a.perform step).1 = .drew (.ok id)
  get : step.Calm → ∀ id, step.request = .get id →
    (∀ s, (a.perform step).1 = .got id (.ok s) ↔ Live events id s) ∧
    ((∀ s, ¬ Live events id s) → (a.perform step).1 = .got id (.error (.store .notFound)))
  delete : step.Calm → ∀ id, step.request = .delete id →
    ((a.perform step).1 = .deleted id (.ok ()) ↔ ∃ s, Live events id s) ∧
    ((∀ s, ¬ Live events id s) → (a.perform step).1 = .deleted id (.error (.store .notFound)))
  /-- The live runs, once each, in ascending order of ids. -/
  list : step.Calm → step.request = .list → ∃ snapshots,
    (a.perform step).1 = .listed (.ok snapshots) ∧
    (snapshots.map Snapshot.id).Pairwise (· < ·) ∧ ∀ s, s ∈ snapshots ↔ Live events s.id s
  /-- An error leaves every stored run as it is. -/
  failed : (a.perform step).1.Failed →
    (∀ id, RunStore.get (a.perform step).2.store.store id = RunStore.get a.store.store id) ∧
    RunStore.index (a.perform step).2.store.store = RunStore.index a.store.store

variable {n : Nat} {h : List Event × Archive (Erratic σ)} {step : Step}

theorem Tracks.fetch_live (ht : Tracks d n h) (hc : step.Calm) {id : UInt64} {s : Snapshot}
    (hs : Live h.1 id s) : (h.2.withFaults step.failing).fetch id = .ok s := by
  have hready := ht.ready.withFaults step.failing
  exact hready.fetch_run (hc.not_mem .get (some id)) (ht.stored.stored id s hs)
    (ht.stored.readable id s hs)

theorem Tracks.fetch_absent (ht : Tracks d n h) (hc : step.Calm) {id : UInt64}
    (hs : ∀ s, ¬ Live h.1 id s) :
    (h.2.withFaults step.failing).fetch id = .error (.store .notFound) := by
  have hready := ht.ready.withFaults step.failing
  exact hready.fetch_absent (hc.not_mem .get (some id)) (ht.stored.run?_eq_none hs)

theorem Tracks.fetch_eq_ok_iff (ht : Tracks d n h) (hc : step.Calm) (id : UInt64) (s : Snapshot) :
    (h.2.withFaults step.failing).fetch id = .ok s ↔ Live h.1 id s := by
  refine ⟨?_, ht.fetch_live hc⟩
  intro hf
  by_cases hl : ∃ s', Live h.1 id s'
  · obtain ⟨s', hs'⟩ := hl
    rw [ht.fetch_live hc hs'] at hf
    cases hf
    exact hs'
  · rw [ht.fetch_absent hc (not_exists.mp hl)] at hf
    cases hf

theorem Tracks.get (ht : Tracks d n h) (hc : step.Calm) {id : UInt64}
    (hreq : step.request = .get id) :
    (∀ s, (h.2.perform step).1 = .got id (.ok s) ↔ Live h.1 id s) ∧
    ((∀ s, ¬ Live h.1 id s) → (h.2.perform step).1 = .got id (.error (.store .notFound))) := by
  have hevent : (h.2.perform step).1 = .got id ((h.2.withFaults step.failing).fetch id) := by
    simp only [perform, hreq, (ht.ready.withFaults step.failing).get]
  rw [hevent]
  refine ⟨fun s => ?_, fun hs => by rw [ht.fetch_absent hc hs]⟩
  rw [← ht.fetch_eq_ok_iff hc id s]
  simp

theorem Tracks.list (ht : Tracks d n h) (hc : step.Calm) (hreq : step.request = .list) :
    ∃ snapshots, (h.2.perform step).1 = .listed (.ok snapshots) ∧
      (snapshots.map Snapshot.id).Pairwise (· < ·) ∧ ∀ s, s ∈ snapshots ↔ Live h.1 s.id s := by
  have hready := ht.ready.withFaults step.failing
  have hfetch : ∀ id, h.2.table.run? id ≠ none →
      ∃ s, (h.2.withFaults step.failing).fetch id = .ok s ∧ s.id = id := by
    intro id hrun
    obtain ⟨s, hs⟩ := ht.stored.live id hrun
    exact ⟨s, ht.fetch_live hc hs, hs.id_eq⟩
  obtain ⟨snapshots, hlist, hsorted, hall, hmem⟩ := 
    hready.list_ok .latest (hc.not_mem .index none) hfetch
  refine ⟨snapshots, by simp only [perform, hreq, hlist], hsorted, fun s => ?_⟩
  constructor
  · intro hs
    exact (ht.fetch_eq_ok_iff hc s.id s).mp (hall s hs)
  · intro hl
    have hrun : h.2.table.run? s.id ≠ none := by
      rw [ht.stored.stored s.id s hl]
      simp
    obtain ⟨u, hu, hid⟩ := List.mem_map.mp ((hmem s.id).mpr hrun)
    have hlu := (ht.fetch_eq_ok_iff hc u.id u).mp (hall u hu)
    rw [hid] at hlu
    rwa [ht.stored.unique hl hlu]

theorem Tracks.delete (ht : Tracks d n h) (hc : step.Calm) {id : UInt64}
    (hreq : step.request = .delete id) :
    ((h.2.perform step).1 = .deleted id (.ok ()) ↔ ∃ s, Live h.1 id s) ∧
    ((∀ s, ¬ Live h.1 id s) → (h.2.perform step).1 = .deleted id (.error (.store .notFound))) := by
  have hready := ht.ready.withFaults step.failing
  have hf := hc.not_mem .delete (some id)
  have hmissing : (∀ s, ¬ Live h.1 id s) →
      (h.2.perform step).1 = .deleted id (.error (.store .notFound)) := by
    intro hs
    have hdelete := Erratic.delete_missing hready.valid hf (ht.stored.run?_eq_none hs)
    simp only [perform, hreq, Archive.delete, hdelete]
  refine ⟨⟨?_, ?_⟩, hmissing⟩
  · intro he
    by_cases hs : ∃ s, Live h.1 id s
    · exact hs
    · rw [hmissing (not_exists.mp hs)] at he
      cases he
  · rintro ⟨s, hs⟩
    have hrun : h.2.table.run? id ≠ none := by
      rw [ht.stored.stored id s hs]
      simp
    obtain ⟨store, hdelete, -, -⟩ := Erratic.delete_working hready.valid hf hrun
    simp only [perform, hreq, Archive.delete, hdelete]

theorem Tracks.save (ht : Tracks d n h) (hc : step.Calm) {s : Snapshot}
    (hreq : step.request = .save s) : ∃ id, (h.2.perform step).1 = .saved s (.ok id) := by
  have hready := ht.ready.withFaults step.failing
  obtain ⟨store, hnext, hvalid, -⟩ :=
    Erratic.nextId_working hready.valid (hc.not_mem .nextId none)
  obtain ⟨store', hput, -, -⟩ := Erratic.put_working (s := ⟨store, step.failing⟩) hvalid
    (hc.not_mem .put (some (h.2.table.last + 1))) { s with id := h.2.table.last + 1 }.encode
  refine ⟨h.2.table.last + 1, ?_⟩
  simp only [perform, hreq, save_put hnext hput]
  rfl

theorem Tracks.nextId (ht : Tracks d n h) (hc : step.Calm) (hreq : step.request = .nextId) :
    ∃ id, (h.2.perform step).1 = .drew (.ok id) := by
  have hready := ht.ready.withFaults step.failing
  obtain ⟨store, hnext, -, -⟩ := Erratic.nextId_working hready.valid (hc.not_mem .nextId none)
  refine ⟨h.2.table.last + 1, ?_⟩
  simp only [perform, hreq, hnext]
  rfl

theorem Tracks.failed (ht : Tracks d n h) (hr : step.request = .reopen → d = true)
    (hf : (h.2.perform step).1.Failed) :
    (∀ id, RunStore.get (h.2.perform step).2.store.store id = RunStore.get h.2.store.store id) ∧
      RunStore.index (h.2.perform step).2.store.store = RunStore.index h.2.store.store := by
  obtain ⟨hready, heffect⟩ := perform_effect ht.ready step hr
  rcases heffect.run?_cases with ⟨s, he, -⟩ | ⟨id, he, -, -⟩ | ⟨-, -, hrun⟩
  · rw [he] at hf
    exact hf.elim
  · rw [he] at hf
    exact hf.elim
  · exact ⟨LawfulRunStore.get_congr ht.ready.valid hready.valid hrun,
      LawfulRunStore.index_congr ht.ready.valid hready.valid hrun⟩

/-- **Every step of every history.** -/
theorem Tracks.stepRefines (ht : Tracks d n h) (hr : step.request = .reopen → d = true)
    (hn : n + step.draws.toNat < UInt64.size) :
    StepRefines h.1 h.2 step (n + step.draws.toNat) := by
  obtain ⟨-, heffect⟩ := perform_effect ht.ready step hr
  obtain ⟨hnumbered, hcounted⟩ := ht.numbered.step heffect hn
  exact {
    ascending := hnumbered.ascending
    counted := hcounted
    save := fun hc _ hreq => ht.save hc hreq
    nextId := ht.nextId
    get := fun hc _ hreq => ht.get hc hreq
    delete := fun hc _ hreq => ht.delete hc hreq
    list := ht.list
    failed := ht.failed hr }

/-- The step after a history does what it has to. -/
def RefinesMap (start : Archive (Erratic σ)) (steps : List Step) (step : Step) : Prop :=
  StepRefines (history start steps).1 (history start steps).2 step
    (Step.drawCount (steps ++ [step]))

theorem refinesMap_of_ready {start : Archive (Erratic σ)} (hready : start.Ready d)
    (hempty : start.table = .empty) {steps : List Step}
    (hs : ∀ t ∈ steps ++ [step], t.request.Storable)
    (hr : ∀ t ∈ steps ++ [step], t.request = .reopen → d = true)
    (hn : Step.drawCount (steps ++ [step]) < UInt64.size) : RefinesMap start steps step := by
  rw [RefinesMap, Step.drawCount_snoc]
  rw [Step.drawCount_snoc] at hn
  have ht := history_tracks hready hempty (fun t hmem => hs t (List.mem_append_left _ hmem))
    (fun t hmem => hr t (List.mem_append_left _ hmem)) (by omega)
  exact ht.stepRefines (hr step (by simp)) hn

end Archive

/-- **The archive is a map.**  Take an archive without a cache on an empty
store, in memory or in a database, and any history of requests with any calls
failing, in which runs are storable and ids do not run out; only a durable
database may be opened again. Then the next step hands out no id that is not
above all ids before it, lost ones included; if nothing fails, it answers
according to the runs that were saved and not deleted since; and if its answer
is an error, all stored runs are as before. -/
theorem archive_refines_map {δ : Type} [Database δ] [LawfulDatabase δ] (steps : List Step)
    (step : Step)
    (hs : ∀ t ∈ steps ++ [step], t.request.Storable)
    (hn : Step.drawCount (steps ++ [step]) < UInt64.size) :
    ((∀ t ∈ steps ++ [step], t.request ≠ .reopen) →
      Archive.RefinesMap (.bare ({} : MemoryStore)) steps step) ∧
    ∀ durable, (∀ t ∈ steps ++ [step], t.request = .reopen → durable = true) →
      Archive.RefinesMap (.bare (Database.empty durable : δ)) steps step := by
  constructor
  · intro hr
    have hready : (Archive.bare ({} : MemoryStore)).Ready false :=
      ⟨rfl, rfl, rfl, List.Pairwise.nil⟩
    exact Archive.refinesMap_of_ready hready rfl hs (fun t hmem hreq => absurd hreq (hr t hmem)) hn
  · intro durable hr
    have hready : (Archive.bare (Database.empty durable : δ)).Ready durable :=
      ⟨rfl, Database.Used.empty⟩
    exact Archive.refinesMap_of_ready hready (Database.asTable_empty durable) hs hr hn

/-- A run without records. -/
def blankRun : Snapshot where
  id := 0
  created := 0
  layout := [97]
  title := []
  sources := []
  aggregate := .fresh 1 .float

/-- The first save fails and its id is lost, the second one does not; then the
store is opened again. -/
def lossySteps : List Step :=
  [⟨fun run => if run = some 1 then [.put] else [], .save blankRun⟩, ⟨fun _ => [], .save blankRun⟩,
    ⟨fun _ => [], .reopen⟩]

theorem get_after_lossySteps :
    ((Archive.history (.bare (Database.empty true : KeyedStore)) lossySteps).2.perform
      ⟨fun _ => [], .get 2⟩).1 = .got 2 (.ok { blankRun with id := 2 }) := by
  have hblank : blankRun.Encodable ∧ blankRun.aggregate.Shaped := by
    refine ⟨⟨by decide, by decide, by decide, nofun, by decide, by decide⟩, ?_⟩
    exact Aggregate.shaped_fresh 1 .float
  have hs : ∀ t ∈ lossySteps ++ [⟨fun _ => [], .get 2⟩], t.request.Storable := by
    simp [lossySteps, Request.Storable, hblank]
  have hn : Step.drawCount (lossySteps ++ [⟨fun _ => [], .get 2⟩]) < UInt64.size := by decide
  obtain ⟨-, hdisk⟩ :=
    archive_refines_map (δ := KeyedStore) lossySteps ⟨fun _ => [], .get 2⟩ hs hn
  have hget := (hdisk true fun _ _ _ => rfl).get (fun _ => rfl) 2 rfl
  refine (hget.1 { blankRun with id := 2 }).mpr
    ⟨[.saved blankRun (.error (.store (.injected .put)))], blankRun, [.reopened], rfl, rfl, ?_⟩
  simp

end PerfReport
