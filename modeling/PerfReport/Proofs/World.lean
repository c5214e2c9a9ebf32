import PerfReport.Proofs.Aggregate.Update
import PerfReport.Proofs.Storage.Table
import PerfReport.World

/-!
# Archives in the world

Every place has a store, an empty one until something is kept there. Opening
an archive changes no store and no file, and at most makes the folder that its
path leads to, so that the same path leads there ever after.

* `storeAt_setArchive`: what keeping a store changes;
* `walk_mono`, `walk_append`: paths through a world with more folders;
* `read_of_write`: a file that was written is read back;
* `openArchive_ok`: what opening an archive does;
* `openArchive_setArchive`: and what it finds when it is opened again.
-/

namespace PerfReport.World

variable {δ : Type} [Database δ]

/-! ## Stores by place -/

def storeAt (w : World δ) (p : Place) : δ := (w.archives.lookup p).getD (Database.empty true)

theorem archiveAt_eq (w : World δ) (p : Place) : w.archiveAt p = ⟨w, some p, w.storeAt p⟩ := rfl

theorem storeAt_setArchive (w : World δ) (p : Place) (store : δ) (q : Place) :
    (w.setArchive (some p) store).storeAt q = if q = p then store else w.storeAt q := by
  rw [storeAt, setArchive, lookup_cons_if, lookup_filter_ne]
  by_cases hq : q = p <;> simp [storeAt, hq]

/-! ## Paths -/

theorem entry?_eq_folder_iff (w : World δ) (p : Place) :
    w.entry? p = some .folder ↔ w.isFolder p = true := by
  unfold entry?
  split
  · simp [*]
  · simp [*]

theorem walk_cons_eq_ok_iff (w : World δ) (p q : Place) (name : Text) (names : List Text) :
    w.walk p (name :: names) = .ok q ↔ w.isFolder p = true ∧ name.length ≤ Place.maxName ∧
      w.walk (p.follow name) names = .ok q := by
  rw [← entry?_eq_folder_iff, walk]
  cases he : w.entry? p with
  | none => simp
  | some e =>
    cases e with
    | file bytes => simp
    | folder =>
      by_cases hn : name.length ≤ Place.maxName
      · simp [hn, Nat.not_lt.mpr hn]
      · simp [hn, Nat.lt_of_not_le hn]

/-- More folders do not lead astray. -/
theorem walk_mono {w w' : World δ} (hle : ∀ p, w.isFolder p = true → w'.isFolder p = true)
    {p q : Place} {names : List Text} (h : w.walk p names = .ok q) : w'.walk p names = .ok q := by
  induction names generalizing p with
  | nil => exact h
  | cons name names ih =>
    obtain ⟨hp, hn, hrest⟩ := (walk_cons_eq_ok_iff w p q name names).mp h
    exact (walk_cons_eq_ok_iff w' p q name names).mpr ⟨hle p hp, hn, ih hrest⟩

theorem walk_append {w : World δ} {p q r : Place} {names more : List Text}
    (h : w.walk p names = .ok q) (h' : w.walk q more = .ok r) :
    w.walk p (names ++ more) = .ok r := by
  induction names generalizing p with
  | nil =>
    cases h
    exact h'
  | cons name names ih =>
    obtain ⟨hp, hn, hrest⟩ := (walk_cons_eq_ok_iff w p q name names).mp h
    exact (walk_cons_eq_ok_iff w p r name (names ++ more)).mpr ⟨hp, hn, ih hrest⟩

/-- Slashes behind a folder lead nowhere else. -/
theorem walk_slashes {w : World δ} {p : Place} (hp : w.isFolder p = true) {names : List Text}
    (hn : ∀ name ∈ names, name = []) : w.walk p names = .ok p := by
  induction names with
  | nil => rfl
  | cons name names ih =>
    obtain ⟨rfl, hrest⟩ := List.forall_mem_cons.mp hn
    exact (walk_cons_eq_ok_iff w p p [] names).mpr ⟨hp, Nat.zero_le _, ih hrest⟩

theorem locate_eq_ok_iff (w : World δ) (path : Text) (p : Place) :
    w.locate path = .ok p ↔ Place.textFault? path = none ∧
      w.walk (Place.ofPath path).1 (Place.ofPath path).2 = .ok p := by
  rw [locate]
  cases Place.textFault? path <;> simp

theorem locate_mono {w w' : World δ} (hle : ∀ p, w.isFolder p = true → w'.isFolder p = true)
    {path : Text} {p : Place} (h : w.locate path = .ok p) : w'.locate path = .ok p := by
  rw [locate_eq_ok_iff] at h ⊢
  exact ⟨h.1, walk_mono hle h.2⟩

theorem dropSlashes_append (names : List Text) :
    ∃ slashes, names = dropSlashes names ++ slashes ∧ ∀ name ∈ slashes, name = [] := by
  refine ⟨(names.reverse.takeWhile List.isEmpty).reverse, ?_, ?_⟩
  · rw [dropSlashes, ← List.reverse_append, List.takeWhile_append_dropWhile, List.reverse_reverse]
  · intro name hname
    have hempty := List.all_eq_true.mp List.all_takeWhile name (List.mem_reverse.mp hname)
    exact List.isEmpty_iff.mp hempty

/-! ## Files -/

theorem isFolder_setFile (w : World δ) (p : Place) (bytes : Text) (q : Place) :
    (w.setFile p bytes).isFolder q = w.isFolder q := rfl

/-- **Reading what was written.**  The path still leads to the file. -/
theorem read_of_write {w w' : World δ} {path bytes : Text} (h : w.write path bytes = .ok w') :
    w'.read path = .ok bytes := by
  rw [write] at h
  cases hl : w.locate path with
  | error fault =>
    rw [hl] at h
    cases h
  | ok p =>
    simp only [hl] at h
    cases hp : w.isFolder p with
    | true =>
      rw [hp] at h
      cases h
    | false =>
      rw [hp] at h
      cases h
      have hfolders : ∀ q, w.isFolder q = true → (w.setFile p bytes).isFolder q = true :=
        fun _ hq => hq
      have hl' := locate_mono hfolders hl
      have hentry : entry? (w.setFile p bytes) p = some (.file bytes) := by
        unfold entry?
        rw [isFolder_setFile, hp, if_neg Bool.false_ne_true, setFile, List.lookup_cons_self]
        rfl
      have hfind : (w.setFile p bytes).find path = .ok (.file bytes) := by
        rw [find, hl']
        simp only [bind, Except.bind, hentry]
      rw [read, hfind]

/-! ## Opening archives -/

theorem isFolder_cons (w : World δ) (p q : Place) (h : w.isFolder q = true) :
    ({ w with folders := p :: w.folders } : World δ).isFolder q = true := by
  simp only [isFolder, Bool.or_eq_true, List.contains_cons] at h ⊢
  rcases h with h | h
  · exact .inl h
  · exact .inr (.inr h)

theorem isFolder_made (w : World δ) (p : Place) :
    ({ w with folders := p :: w.folders } : World δ).isFolder p = true := by
  simp [isFolder]

/-- The folder that was made is the one that the path leads to. -/
theorem makeNamed_ok {w w' : World δ} {path : Text} {p : Place}
    (h : w.makeNamed path = .ok (w', p)) :
    w' = { w with folders := p :: w.folders } ∧ w'.locate path = .ok p := by
  simp only [makeNamed] at h
  cases hfault : Place.textFault? path with
  | some fault =>
    rw [hfault] at h
    cases h
  | none =>
    simp only [hfault] at h
    obtain ⟨q, hwalk, h⟩ := bind_eq_ok_iff.mp h
    rw [guard_eq_ok_iff] at h
    obtain ⟨-, h⟩ := h
    cases h
    refine ⟨rfl, (locate_eq_ok_iff _ path p).mpr ⟨hfault, ?_⟩⟩
    obtain ⟨slashes, hnames, hslashes⟩ := dropSlashes_append (Place.ofPath path).2
    rw [hnames]
    exact walk_append (walk_mono (w.isFolder_cons p) hwalk)
      (walk_slashes (w.isFolder_made p) hslashes)

theorem openArchive_of_folder {w : World δ} {path : Text} {p : Place} (hpath : path ≠ [])
    (hl : w.locate path = .ok p) (hp : w.isFolder p = true) :
    w.openArchive path = .ok (w.archiveAt p) := by
  have hempty : path.isEmpty = false := by simpa using hpath
  have hfind : w.find path = .ok .folder := by
    rw [find, hl]
    simp [bind, Except.bind, (entry?_eq_folder_iff w p).mpr hp]
  rw [openArchive, hempty, hfind, hl]
  rfl

theorem find_eq_folder {w : World δ} {path : Text} (h : w.find path = .ok .folder) :
    ∃ p, w.locate path = .ok p ∧ w.isFolder p = true := by
  obtain ⟨p, hl, he⟩ := bind_eq_ok_iff.mp h
  refine ⟨p, hl, (entry?_eq_folder_iff w p).mp ?_⟩
  cases hentry : w.entry? p with
  | none => simp [hentry] at he
  | some e => simpa [hentry] using he

/-- **Opening an archive.**  A folder may be made; the path leads to it. -/
theorem openArchive_ok {w : World δ} {path : Text} (hpath : path ≠ []) {o : OpenArchive δ}
    (h : w.openArchive path = .ok o) :
    ∃ p, o = o.world.archiveAt p ∧ o.world.locate path = .ok p ∧ o.world.isFolder p = true ∧
      o.world.files = w.files ∧ o.world.archives = w.archives := by
  have hempty : path.isEmpty = false := by simpa using hpath
  rw [openArchive, hempty, if_neg Bool.false_ne_true] at h
  split at h
  · next hfind =>
    obtain ⟨p, hl, hp⟩ := find_eq_folder hfind
    rw [hl] at h
    cases h
    exact ⟨p, rfl, hl, hp, rfl, rfl⟩
  · cases hmade : w.makeNamed path with
    | error fault =>
      rw [hmade] at h
      cases h
    | ok made =>
      obtain ⟨w', p⟩ := made
      rw [hmade] at h
      cases h
      obtain ⟨rfl, hl⟩ := makeNamed_ok hmade
      exact ⟨p, rfl, hl, w.isFolder_made p, rfl, rfl⟩
  · cases h

/-- **Opening it again.**  The path still leads to the store that was kept. -/
theorem openArchive_setArchive {w : World δ} {path : Text} (hpath : path ≠ []) {o : OpenArchive δ}
    (h : w.openArchive path = .ok o) : ∃ p, o.place = some p ∧ o.store = w.storeAt p ∧
      o.world.files = w.files ∧ ∀ store : δ,
        (o.world.setArchive (some p) store).openArchive path =
          .ok ⟨o.world.setArchive (some p) store, some p, store⟩ ∧
        ∀ q, (o.world.setArchive (some p) store).storeAt q =
          if q = p then store else w.storeAt q := by
  obtain ⟨p, ho, hl, hp, hfiles, harchives⟩ := openArchive_ok hpath h
  have hstores (q : Place) : o.world.storeAt q = w.storeAt q := by
    rw [storeAt, harchives, storeAt]
  rw [archiveAt_eq] at ho
  refine ⟨p, by rw [ho], by rw [ho, hstores], hfiles, ?_⟩
  intro store
  have hkept (q : Place) : (o.world.setArchive (some p) store).storeAt q =
      if q = p then store else w.storeAt q := by
    rw [storeAt_setArchive, hstores]
  refine ⟨?_, hkept⟩
  have hfolders : ∀ q, o.world.isFolder q = true →
      (o.world.setArchive (some p) store).isFolder q = true := fun _ hq => hq
  rw [openArchive_of_folder hpath (locate_mono hfolders hl) hp, archiveAt_eq, hkept, if_pos rfl]

end PerfReport.World
