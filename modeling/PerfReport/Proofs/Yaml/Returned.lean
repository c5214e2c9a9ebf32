import Mathlib.Data.List.Forall2
import PerfReport.Proofs.Yaml.Whole
import PerfReport.Yaml.Merge
import PerfReport.Yaml.Printer

/-!
# Returned documents

A document that was written is returned if the same collections are read, with
scalars that stand for what the written ones stood for. What a field takes from
such a document is said of the written one: `ReadAs` holds of every node that
may be returned.

A record is filled pair by pair, and `Leads` follows it from one value to the
next; names that are left out leave it where it is.

* `readAs_toText`, `readAs_toInt`, `readAs_toBool`: scalars;
* `readAs_toList`: lists;
* `Leads.fill`: records.
-/

namespace PerfReport.Yaml

/-! ## Decoding -/

namespace Decoding

variable {α β : Type}

@[simp] theorem fits_bind (a : α) (f : α → Decoding β) : (fits a >>= f) = f a := by
  show andThen (.ok (a, true)) f = f a
  cases hf : f a with
  | error e =>
    simp only [andThen, hf]
    rfl
  | ok b =>
    simp only [andThen, hf, Bool.true_and]
    rfl

end Decoding

namespace Node

/-! ## What is returned -/

/-- A quoted scalar is returned as its text, a plain one as anything with its
sense. -/
def isScalarReturned (t : Text) : Style → (u : Text) → (style : Style) → Bool
  | .quoted, u, style => u == t && resolve? u style == some (.text, t)
  | .plain, u, style => (resolve? u style).map Prod.fst == some (Sense.ofText t)
  | .tagged _, _, _ => false

mutual

/-- The second node is what may be read where the first was written. No key
turns into a merge mark. -/
def isReturned : (written read : Node) → Bool
  | .scalar t style, .scalar u style' => isScalarReturned t style u style'
  | .mapping pairs, .mapping pairs' => arePairsReturned pairs pairs'
  | .sequence items, .sequence items' => areItemsReturned items items'
  | _, _ => false

def arePairsReturned : (written read : List (Node × Node)) → Bool
  | [], [] => true
  | (key, value) :: pairs, (key', value') :: pairs' =>
    isReturned key key' && !key'.isMerge && isReturned value value'
      && arePairsReturned pairs pairs'
  | _, _ => false

def areItemsReturned : (written read : List Node) → Bool
  | [], [] => true
  | n :: items, n' :: items' => isReturned n n' && areItemsReturned items items'
  | _, _ => false

end

end Node

/-- What is written for the node is read as a document that returns it. This is
said of one document at a time: the key `<<`, for one, is written without
quotes by the standard codec and comes back as a merge mark. -/
def Codec.Returns (y : Codec) (n : Node) : Prop :=
  ∃ m, y.read? (y.write n) = some (some m) ∧ n.isReturned m = true

theorem Codec.returns_of_text {y : Codec} {n : Node} {t : Text} (hwrite : y.write n = t)
    (hread : (y.read? t).join.any n.isReturned = true) : y.Returns n := by
  rw [← hwrite] at hread
  rcases hm : y.read? (y.write n) with _ | _ | m
  · simp [hm] at hread
  · simp [hm] at hread
  · exact ⟨m, hm, by simpa [hm] using hread⟩

namespace Node

variable {α ρ : Type}

theorem exists_scalar_of_isReturned {t : Text} {style : Style} {m : Node}
    (h : (scalar t style).isReturned m = true) :
    ∃ u style', m = .scalar u style' ∧ isScalarReturned t style u style' = true := by
  cases m with
  | scalar u style' => exact ⟨u, style', rfl, by simpa [isReturned] using h⟩
  | mapping pairs => simp [isReturned] at h
  | sequence items => simp [isReturned] at h

theorem exists_mapping_of_isReturned {pairs : List (Node × Node)} {m : Node}
    (h : (mapping pairs).isReturned m = true) :
    ∃ pairs', m = .mapping pairs' ∧ arePairsReturned pairs pairs' = true := by
  cases m with
  | scalar u style' => simp [isReturned] at h
  | mapping pairs' => exact ⟨pairs', rfl, by simpa [isReturned] using h⟩
  | sequence items => simp [isReturned] at h

theorem exists_sequence_of_isReturned {items : List Node} {m : Node}
    (h : (sequence items).isReturned m = true) :
    ∃ items', m = .sequence items' ∧ areItemsReturned items items' = true := by
  cases m with
  | scalar u style' => simp [isReturned] at h
  | mapping pairs' => simp [isReturned] at h
  | sequence items' => exact ⟨items', rfl, by simpa [isReturned] using h⟩

theorem exists_cons_of_arePairsReturned {p : Node × Node} {pairs pairs' : List (Node × Node)}
    (h : arePairsReturned (p :: pairs) pairs' = true) :
    ∃ p' rest, pairs' = p' :: rest ∧ p.1.isReturned p'.1 = true ∧ p'.1.isMerge = false ∧
      p.2.isReturned p'.2 = true ∧ arePairsReturned pairs rest = true := by
  cases pairs' with
  | nil => simp [arePairsReturned] at h
  | cons p' rest =>
    simp only [arePairsReturned, Bool.and_eq_true, Bool.not_eq_true'] at h
    obtain ⟨⟨⟨hkey, hmerge⟩, hvalue⟩, hrest⟩ := h
    exact ⟨p', rest, rfl, hkey, hmerge, hvalue, hrest⟩

theorem eq_nil_of_arePairsReturned {pairs' : List (Node × Node)}
    (h : arePairsReturned [] pairs' = true) : pairs' = [] := by
  cases pairs' with
  | nil => rfl
  | cons p' rest => simp [arePairsReturned] at h

/-! ## What fields take -/

/-- Whatever is returned for the node is read as the value. -/
def ReadAs (read : Node → Decoding α) (n : Node) (a : α) : Prop :=
  ∀ m, n.isReturned m = true → read m = .fits a

theorem resolve?_of_quoted {t u : Text} {style : Style}
    (h : isScalarReturned t .quoted u style = true) :
    u = t ∧ resolve? u style = some (.text, t) := by
  rw [isScalarReturned, Bool.and_eq_true] at h
  exact ⟨beq_iff_eq.mp h.1, beq_iff_eq.mp h.2⟩

theorem resolve?_of_plain {t u : Text} {style : Style}
    (h : isScalarReturned t .plain u style = true) :
    ∃ v, resolve? u style = some (Sense.ofText t, v) := by
  rw [isScalarReturned, beq_iff_eq, Option.map_eq_some_iff] at h
  obtain ⟨⟨s, v⟩, hv, rfl⟩ := h
  exact ⟨v, hv⟩

/-- A field that keeps texts gets the one that was written. -/
theorem readAs_quoted {f : Sense → Text → Option α} {t : Text} {a : α} (hf : f .text t = some a)
    (old : α) : ReadAs (fromScalar old f) (.scalar t .quoted) a := by
  intro m hm
  obtain ⟨u, style, rfl, hscalar⟩ := exists_scalar_of_isReturned hm
  obtain ⟨-, hresolve⟩ := resolve?_of_quoted hscalar
  simp only [fromScalar, hresolve, hf]
  rfl

/-- A field that takes every scalar of this sense for one value gets that. -/
theorem readAs_plain {f : Sense → Text → Option α} {t : Text} {s : Sense} {a : α}
    (hs : Sense.ofText t = s) (hnull : s ≠ .null) (hf : ∀ v, f s v = some a) (old : α) :
    ReadAs (fromScalar old f) (.scalar t .plain) a := by
  intro m hm
  obtain ⟨u, style, rfl, hscalar⟩ := exists_scalar_of_isReturned hm
  obtain ⟨v, hresolve⟩ := resolve?_of_plain hscalar
  rw [hs] at hresolve
  have hvalue := hf v
  cases s <;> first
    | exact absurd rfl hnull
    | simp only [fromScalar, hresolve, hvalue]
      rfl

theorem readAs_toText (t old : Text) : ReadAs (toText old) (.scalar t .quoted) t :=
  readAs_quoted rfl old

theorem readAs_toInt {n : Int} (h : Int64.InRange n) (old : Int) :
    ReadAs (toInt old) (.scalar (Text.ofInt n) .plain) n :=
  readAs_plain (Sense.ofText_ofInt h) nofun (fun _ => if_pos h.2) old

theorem readAs_toBool (b old : Bool) :
    ReadAs (toBool old) (.scalar (if b then "true" else "false") .plain) b := by
  cases b with
  | true => exact readAs_plain (s := .truth true) (by decide) nofun (fun _ => rfl) old
  | false => exact readAs_plain (s := .truth false) (by decide) nofun (fun _ => rfl) old

/-! ### Nulls -/

/-- Nothing that is returned for the node is a null. -/
def NeverNull (n : Node) : Prop := ∀ m, n.isReturned m = true → m.isNull = false

theorem neverNull_mapping (pairs : List (Node × Node)) : NeverNull (.mapping pairs) := by
  intro m hm
  obtain ⟨pairs', rfl, -⟩ := exists_mapping_of_isReturned hm
  rfl

theorem neverNull_whole {n : Int} (h : Int64.InRange n) :
    NeverNull (.scalar (Text.ofInt n) .plain) := by
  intro m hm
  obtain ⟨u, style, rfl, hscalar⟩ := exists_scalar_of_isReturned hm
  obtain ⟨v, hresolve⟩ := resolve?_of_plain hscalar
  rw [isNull, hresolve, Sense.ofText_ofInt h]
  rfl

theorem readAs_toOptional {read : Node → Decoding α} {n : Node} {a : α} (hn : NeverNull n)
    (h : ReadAs read n a) : ReadAs (toOptional read) n (some a) := by
  intro m hm
  rw [toOptional, hn m hm, h m hm]
  rfl

/-! ### Lists -/

theorem readItems_of_returned {read : Node → Decoding α} {items items' : List Node} {xs : List α}
    (h : List.Forall₂ (fun n x => NeverNull n ∧ ReadAs read n x) items xs)
    (hitems : areItemsReturned items items' = true) (done : List α) :
    readItems read items' done = .fits (done.reverse ++ xs) := by
  induction h generalizing items' done with
  | nil =>
    cases items' with
    | nil =>
      rw [readItems, List.append_nil]
      rfl
    | cons m rest => simp [areItemsReturned] at hitems
  | @cons n x items xs hx _ ih =>
    cases items' with
    | nil => simp [areItemsReturned] at hitems
    | cons m rest =>
      rw [areItemsReturned, Bool.and_eq_true] at hitems
      rw [readItems, hx.1 m hitems.1, if_neg Bool.false_ne_true, hx.2 m hitems.1,
        Decoding.fits_bind, ih hitems.2, List.reverse_cons, List.append_assoc]
      rfl

theorem readAs_toList {read : Node → Decoding α} {items : List Node} {xs : List α}
    (h : List.Forall₂ (fun n x => NeverNull n ∧ ReadAs read n x) items xs) :
    ReadAs (toList read) (.sequence items) xs := by
  intro m hm
  obtain ⟨items', rfl, hitems⟩ := exists_sequence_of_isReturned hm
  exact readItems_of_returned h hitems []

/-! ## Records -/

/-- A setter that puts what it reads into the record. -/
theorem readAs_set {set : Node → Decoding ρ} {read : Node → Decoding α} {put : α → ρ} {n : Node}
    {a : α} (hset : ∀ m, set m = (do return put (← read m))) (h : ReadAs read n a) :
    ReadAs set n (put a) := by
  intro m hm
  rw [hset, h m hm]
  rfl

/-- The pairs take a record from one value to another, each by the name that
is its key. -/
inductive Leads (set : Setter ρ) : ρ → List (Node × Node) → ρ → Prop
  | nil (r : ρ) : Leads set r [] r
  | cons {r s r' : ρ} {name : Text} {n : Node} {pairs : List (Node × Node)} :
      ReadAs (set r name) n s → Leads set s pairs r' →
      Leads set r ((.scalar name .quoted, n) :: pairs) r'

variable {set : Setter ρ} {r s r' : ρ} {pairs pairs' : List (Node × Node)}

theorem Leads.append {more : List (Node × Node)} (h : Leads set r pairs s)
    (hmore : Leads set s more r') : Leads set r (pairs ++ more) r' := by
  induction h with
  | nil r => exact hmore
  | cons hn _ ih => exact .cons hn (ih hmore)

theorem Leads.of_eq (h : Leads set r pairs s) (hs : s = r') : Leads set r pairs r' := hs ▸ h

/-- What may be read for the pairs has their keys. -/
theorem Leads.map_keyOf (h : Leads set r pairs r') (hpairs : arePairsReturned pairs pairs' = true) :
    pairs'.map (fun p => p.1.keyOf) = pairs.map fun p => p.1.keyOf := by
  induction h generalizing pairs' with
  | nil r => rw [eq_nil_of_arePairsReturned hpairs]
  | cons _ _ ih =>
    obtain ⟨p', rest, rfl, hkey, -, -, hrest⟩ := exists_cons_of_arePairsReturned hpairs
    obtain ⟨u, style, hu, hscalar⟩ := exists_scalar_of_isReturned hkey
    obtain ⟨rfl, -⟩ := resolve?_of_quoted hscalar
    rw [List.map_cons, List.map_cons, ih hrest, hu]
    rfl

theorem name?_of_returned {name : Text} {key : Node}
    (h : (Node.scalar name .quoted).isReturned key = true) : key.name? = .fits (some name) := by
  obtain ⟨u, style, rfl, hscalar⟩ := exists_scalar_of_isReturned h
  obtain ⟨rfl, hresolve⟩ := resolve?_of_quoted hscalar
  simp only [name?, hresolve]
  rfl

theorem Leads.foldlM_fillPair (h : Leads set r pairs r')
    (hpairs : arePairsReturned pairs pairs' = true) :
    pairs'.foldlM (fillPair set) { record := r } = .fits { record := r' } := by
  induction h generalizing pairs' with
  | nil r =>
    rw [eq_nil_of_arePairsReturned hpairs]
    rfl
  | @cons r s r' name n pairs hn _ ih =>
    obtain ⟨p', rest, rfl, hkey, hmerge, hvalue, hrest⟩ := exists_cons_of_arePairsReturned hpairs
    have hpair : fillPair set { record := r } p' = .fits { record := s } := by
      rw [fillPair, hmerge, if_neg Bool.false_ne_true, name?_of_returned hkey, Decoding.fits_bind]
      show (do return ({ record := ← set r name p'.2 } : Filling ρ)) = _
      rw [hn p'.2 hvalue]
      rfl
    rw [List.foldlM_cons, hpair, Decoding.fits_bind, ih hrest]

/-- Without a merge mark there is nothing to merge. -/
theorem fillMerge_of_returned (f : Filling ρ) (all : List (Node × Node))
    (hpairs : arePairsReturned pairs pairs' = true) :
    fillMerge set f all pairs' = .fits f := by
  induction pairs generalizing pairs' with
  | nil =>
    rw [eq_nil_of_arePairsReturned hpairs, fillMerge]
    rfl
  | cons p pairs ih =>
    obtain ⟨p', rest, rfl, -, hmerge, -, hrest⟩ := exists_cons_of_arePairsReturned hpairs
    rw [fillMerge, hmerge, Bool.not_false, if_pos rfl, ih hrest]

/-- **Records are filled.**  If no name occurs twice, the pairs that are
returned take the record where the written ones take it. -/
theorem Leads.fill (h : Leads set r pairs r')
    (hkeys : (pairs.map fun p => p.1.keyOf).Nodup) :
    ReadAs (Node.fill set r) (.mapping pairs) r' := by
  intro m hm
  obtain ⟨pairs', rfl, hpairs⟩ := exists_mapping_of_isReturned hm
  have hdistinct : hasDistinctKeys pairs' = true := by
    rw [hasDistinctKeys, h.map_keyOf hpairs]
    exact decide_eq_true hkeys
  rw [Node.fill, fillPairs, hdistinct, if_neg (by simp), h.foldlM_fillPair hpairs,
    Decoding.fits_bind, fillMerge_of_returned _ _ hpairs, Decoding.fits_bind]
  rfl

end Node

end PerfReport.Yaml
