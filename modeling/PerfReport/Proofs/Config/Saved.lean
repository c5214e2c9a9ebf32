import PerfReport.Config.File
import PerfReport.Proofs.Report.Validated
import PerfReport.Proofs.World
import PerfReport.Proofs.Yaml.Returned

/-!
# Saved configurations

Writing a configuration leaves out the fields that are empty, and reading it
starts from empty fields, so every field is where it was, a precision of zero
included. The layouts come back in the order of their names, which has no
meaning: they pass the same checks in any order.

* `Layout.Representable.readAs_toNode`, `Config.readAs_toNode`: what is read
  from a returned document;
* `Config.validate_eq_ok_iff`: validation is about each layout by itself;
* `Config.loadWith_saveWith`: a configuration survives being saved.
-/

namespace PerfReport

open Yaml Yaml.Node Document

/-! ## Pairs -/

section Pairs

variable {α ρ : Type} {set : Setter ρ} {r : ρ} {name : String}

theorem leads_pair {read : Node → Decoding α} {put : α → ρ} {n : Node} {a : α}
    (hset : ∀ m, set r name m = (do return put (← read m))) (h : ReadAs read n a) :
    Leads set r [pair name n] (put a) :=
  .cons (readAs_set hset h) (.nil _)

/-- A pair that is left out leaves the value that the record has. -/
theorem leads_pairIf {read : Node → Decoding α} {put : α → ρ} {n : Node} {a old : α} {shown : Bool}
    (hset : ∀ m, set r name m = (do return put (← read m))) (h : ReadAs read n a)
    (hold : put old = r) (hskip : shown = false → old = a) :
    Leads set r (pairIf shown name n) (put a) := by
  cases shown with
  | true => exact leads_pair hset h
  | false =>
    rw [← hskip rfl, hold]
    exact .nil r

theorem leads_text {put : Text → ρ} (t : Text)
    (hset : ∀ m, set r name m = (do return put (← m.toText []))) (hold : put [] = r) :
    Leads set r (pairIf (!t.isEmpty) name (ofText t)) (put t) :=
  leads_pairIf hset (readAs_toText t []) hold fun h => Eq.symm (by simpa using h)

theorem leads_int {put : Int → ρ} {n : Int} (hn : Int64.InRange n)
    (hset : ∀ m, set r name m = (do return put (← m.toInt 0))) (hold : put 0 = r) :
    Leads set r (pairIf (n != 0) name (ofInt n)) (put n) :=
  leads_pairIf hset (readAs_toInt hn 0) hold fun h => Eq.symm (by simpa using h)

theorem leads_flag {put : Bool → ρ} (b : Bool)
    (hset : ∀ m, set r name m = (do return put (← m.toBool false))) (hold : put false = r) :
    Leads set r (pairIf b name (ofFlag b)) (put b) :=
  leads_pairIf hset (readAs_toBool b false) hold Eq.symm

/-- The keys of pairs with these names. -/
def keysOf (names : List String) : List (Nat × Text) := names.map fun name => (0, name)

theorem map_keyOf_pairIf (shown : Bool) (name : String) (n : Node) :
    ((pairIf shown name n).map fun p => p.1.keyOf).Sublist (keysOf [name]) := by
  cases shown with
  | true => exact .refl _
  | false => exact List.nil_sublist _

end Pairs

/-! ## Groups -/

/-- The columns of the group are 64-bit numbers. -/
structure Group.Representable (g : Group) : Prop where
  left : Int64.InRange g.left
  right : Int64.InRange g.right

theorem Group.Representable.readAs_toNode {g : Group} (h : g.Representable) :
    ReadAs Group.ofNode g.toNode g := by
  refine Leads.fill ?_ ?_
  · rw [List.append_assoc]
    apply Leads.of_eq
    · exact .append
        (.cons (readAs_set (fun _ => rfl) (readAs_toText g.label _)) <|
          .cons (readAs_set (fun _ => rfl) (readAs_toInt h.left _)) <|
          leads_pair (fun _ => rfl) (readAs_toInt h.right _)) <|
        .append (leads_text g.leftLabel (fun _ => rfl) rfl) <|
        leads_text g.rightLabel (fun _ => rfl) rfl
    · rfl
  · have hkeys : (keysOf ["label", "left", "right", "left_label", "right_label"]).Nodup := by decide
    refine List.Sublist.nodup ?_ hkeys
    simp only [List.append_assoc, List.map_append]
    exact (List.Sublist.refl _).append <| (map_keyOf_pairIf ..).append <| map_keyOf_pairIf ..

/-! ## Layouts -/

/-- The numbers of the layout have 64 bits. -/
structure Layout.Representable (l : Layout) : Prop where
  arity : Int64.InRange l.arity
  records : Int64.InRange l.records
  titleWidth : Int64.InRange l.titleWidth
  labelWidth : Int64.InRange l.labelWidth
  valueWidth : Int64.InRange l.valueWidth
  precision : ∀ p, l.precision = some p → Int64.InRange p
  groups : ∀ g ∈ l.groups, g.Representable

/-- The pair of a precision: zero is written, only no precision is left out. -/
def precisionPairs : Option Int → List (Node × Node)
  | some p => [pair "precision" (ofInt p)]
  | none => []

theorem leads_precision {r : Layout} (hr : r.precision = none) {precision : Option Int}
    (h : ∀ p, precision = some p → Int64.InRange p) :
    Leads Layout.set r (precisionPairs precision) { r with precision := precision } := by
  cases precision with
  | none =>
    refine .of_eq (.nil r) ?_
    rw [← hr]
  | some p =>
    have hp := h p rfl
    have hread := readAs_toOptional (neverNull_whole hp) (readAs_toInt hp 0)
    exact .of_eq (leads_pair (fun _ => rfl) hread) rfl

theorem map_keyOf_precisionPairs (precision : Option Int) :
    ((precisionPairs precision).map fun p => p.1.keyOf).Sublist (keysOf ["precision"]) := by
  cases precision with
  | none => exact List.nil_sublist _
  | some p => exact .refl _

theorem readAs_groups {groups : List Group} (h : ∀ g ∈ groups, g.Representable) :
    ReadAs (toList Group.ofNode) (.sequence (groups.map Group.toNode)) groups := by
  refine readAs_toList ?_
  rw [List.forall₂_map_left_iff, List.forall₂_same]
  exact fun g hg => ⟨neverNull_mapping _, (h g hg).readAs_toNode⟩

theorem Layout.Representable.readAs_toNode {l : Layout} (h : l.Representable) :
    ReadAs Layout.ofNode l.toNode l := by
  refine Leads.fill ?_ ?_
  · -- Field by field in the order of the document, from the empty layout on.
    simp only [List.append_assoc]
    apply Leads.of_eq
    · exact .append
        (.cons (readAs_set (fun _ => rfl) (readAs_toInt h.arity _)) <|
          leads_pair (fun _ => rfl) (readAs_toText l.numeric _)) <|
        .append (leads_text l.division (fun _ => rfl) rfl) <|
        .append (leads_int h.records (fun _ => rfl) rfl) <|
        .append (leads_flag l.summary (fun _ => rfl) rfl) <|
        .append (leads_flag l.total (fun _ => rfl) rfl) <|
        .append (leads_int h.titleWidth (fun _ => rfl) rfl) <|
        .append (leads_int h.labelWidth (fun _ => rfl) rfl) <|
        .append (leads_int h.valueWidth (fun _ => rfl) rfl) <|
        .append (leads_precision rfl h.precision) <|
        leads_pair (fun _ => rfl) (readAs_groups h.groups)
    · rfl
  · -- Whatever is left out, the keys are some of these.
    have hkeys : (keysOf ["arity", "numeric", "division", "records", "summary", "total",
        "title_width", "label_width", "value_width", "precision", "groups"]).Nodup := by decide
    refine List.Sublist.nodup ?_ hkeys
    simp only [List.append_assoc, List.map_append]
    exact (List.Sublist.refl _).append <| (map_keyOf_pairIf ..).append <|
      (map_keyOf_pairIf ..).append <| (map_keyOf_pairIf ..).append <|
      (map_keyOf_pairIf ..).append <| (map_keyOf_pairIf ..).append <|
      (map_keyOf_pairIf ..).append <| (map_keyOf_pairIf ..).append <|
      (map_keyOf_precisionPairs _).append <| .refl _

namespace Layouts

theorem ext {ls ls' : Layouts} (h : ls.entries = ls'.entries) : ls = ls' := by
  cases ls
  cases ls'
  cases h
  rfl

theorem entries_insert_of_notMem {ls : Layouts} {name : Text}
    (h : name ∉ ls.entries.map Prod.fst) (l : Option Layout) :
    (ls.insert name l).entries = ls.entries ++ [(name, l)] := by
  have hself : ls.entries.filter (fun e => e.1 != name) = ls.entries := by
    refine List.filter_eq_self.mpr ?_
    intro e he
    rw [bne_iff_ne]
    rintro rfl
    exact h (List.mem_map_of_mem he)
  show _ ++ _ = _
  rw [hself]

/-- There is a layout under the name, and its numbers have 64 bits. -/
def IsRepresentable (e : Text × Option Layout) : Prop := ∃ l, e.2 = some l ∧ l.Representable

/-- Names that are new are taken one by one. -/
theorem leads_set {entries : List (Text × Option Layout)} (he : ∀ e ∈ entries, IsRepresentable e)
    {ls ls' : Layouts} (h : ls'.entries = ls.entries ++ entries) :
    Leads Layouts.set ls (entries.map fun (name, l) => (ofText name, layoutNode l)) ls' := by
  induction entries generalizing ls with
  | nil =>
    rw [List.append_nil] at h
    rw [ext h]
    exact .nil ls
  | cons e entries ih =>
    obtain ⟨name, layout⟩ := e
    obtain ⟨⟨l, rfl, hl⟩, hentries⟩ := List.forall_mem_cons.mp he
    have hnew : name ∉ ls.entries.map Prod.fst := by
      have hnodup := ls'.nodup
      rw [h, List.map_append, List.nodup_append] at hnodup
      intro hmem
      exact hnodup.2.2 name hmem name (List.mem_cons_self ..) rfl
    refine .cons (readAs_set (fun _ => rfl)
      (readAs_toOptional (neverNull_mapping _) hl.readAs_toNode)) (ih hentries ?_)
    rw [entries_insert_of_notMem hnew, h, List.append_assoc]
    rfl

/-- The layouts in the order in which they are written. -/
def sorted (ls : Layouts) : Layouts where
  entries := ls.entries.mergeSort fun a b => Natural.le a.1 b.1
  nodup := ((ls.entries.mergeSort_perm _).map Prod.fst).nodup_iff.mpr ls.nodup

theorem perm_sorted (ls : Layouts) : ls.sorted.entries.Perm ls.entries :=
  ls.entries.mergeSort_perm _

theorem readAs_toNode {ls : Layouts} (h : ∀ e ∈ ls.entries, IsRepresentable e) :
    ReadAs (Node.fill Layouts.set .empty) ls.toNode ls.sorted := by
  have hsorted : ∀ e ∈ ls.sorted.entries, IsRepresentable e :=
    fun e he => h e (ls.perm_sorted.mem_iff.mp he)
  refine (leads_set hsorted rfl).fill ?_
  rw [List.map_map]
  have hinj : Function.Injective fun name : Text => (0, name) := fun _ _ h => (Prod.mk.inj h).2
  have hnames := ls.sorted.nodup.map hinj
  rwa [List.map_map] at hnames

end Layouts

/-! ## Configurations -/

theorem ArchiveSettings.readAs_toNode (a : ArchiveSettings) :
    ReadAs (Node.fill ArchiveSettings.set {}) a.toNode a := by
  refine Leads.fill ?_ ?_
  · apply Leads.of_eq
    · exact .append (leads_text a.path (fun _ => rfl) rfl) <|
        leads_pair (fun _ => rfl) (readAs_toBool a.cache _)
    · rfl
  · have hkeys : (keysOf ["path", "cache"]).Nodup := by decide
    refine List.Sublist.nodup ?_ hkeys
    rw [List.map_append]
    exact (map_keyOf_pairIf ..).append <| .refl _

namespace Config

/-- All numbers of the configuration have 64 bits. -/
def Representable (c : Config) : Prop :=
  ∀ name l, (name, some l) ∈ c.layouts.entries → l.Representable

/-- The configuration with its layouts in the order in which they are
written. -/
def sorted (c : Config) : Config := { c with layouts := c.layouts.sorted }

theorem readAs_toNode {c : Config} (h : ∀ e ∈ c.layouts.entries, Layouts.IsRepresentable e) :
    ReadAs (Node.fill Config.set {}) c.toNode c.sorted := by
  refine Leads.fill ?_ ?_
  · apply Leads.of_eq
    · exact .cons (readAs_set (fun _ => rfl) (Layouts.readAs_toNode h)) <|
        leads_pair (fun _ => rfl) c.archive.readAs_toNode
    · rfl
  · have hkeys : (keysOf ["layouts", "archive"]).Nodup := by decide
    exact hkeys

theorem forM_eq_ok_iff {ε α : Type} {f : α → Except ε Unit} {xs : List α} :
    xs.forM f = .ok () ↔ ∀ x ∈ xs, f x = .ok () := by
  refine ⟨fun h _ hx => forM_eq_ok h hx, ?_⟩
  induction xs with
  | nil => exact fun _ => rfl
  | cons x xs ih =>
    intro h
    obtain ⟨hx, hxs⟩ := List.forall_mem_cons.mp h
    exact bind_eq_ok_iff.mpr ⟨(), hx, ih hxs⟩

/-- **Validation is about each layout by itself.** -/
theorem validate_eq_ok_iff (c : Config) : c.validate = .ok () ↔
    c.layouts.entries ≠ [] ∧ ∀ e ∈ c.layouts.entries, checkEntry e = .ok () := by
  rw [validate, ← forM_eq_ok_iff]
  cases c.layouts.entries <;> simp

theorem validate_sorted {c : Config} (h : c.validate = .ok ()) : c.sorted.validate = .ok () := by
  rw [validate_eq_ok_iff] at h ⊢
  have hperm : c.sorted.layouts.entries.Perm c.layouts.entries := c.layouts.perm_sorted
  refine ⟨?_, fun e he => h.2 e (hperm.mem_iff.mp he)⟩
  intro hnil
  rw [hnil] at hperm
  exact h.1 hperm.nil_eq.symm

/-- Every name of a sound configuration has a layout. -/
theorem isRepresentable_of_validate {c : Config} (h : c.validate = .ok ())
    (hc : c.Representable) : ∀ e ∈ c.layouts.entries, Layouts.IsRepresentable e := by
  rintro ⟨name, layout⟩ he
  cases layout with
  | none => cases ((validate_eq_ok_iff c).mp h).2 _ he
  | some l => exact ⟨l, rfl, hc name l he⟩

/-- A returned document gives the configuration back. -/
theorem parse_write {y : Codec} {c : Config} (h : c.validate = .ok ()) (hc : c.Representable)
    (hy : y.Returns c.toNode) : parse y (y.write c.toNode) = .ok c.sorted := by
  obtain ⟨m, hread, hm⟩ := hy
  have hnode : ofNode m = .ok c.sorted := by
    rw [ofNode, readAs_toNode (isRepresentable_of_validate h hc) m hm]
    rfl
  have htext : ofText y (y.write c.toNode) = .ok c.sorted := by
    rw [ofText, hread]
    exact hnode
  rw [parse, htext]
  simp only [validate_sorted h]

/-- What is saved is the document of the configuration. -/
theorem saveWith_eq_ok {δ : Type} [Database δ] {y : Codec} {c : Config} {w w' : World δ}
    {path : Text} (h : c.saveWith y w path = (.ok (), w')) :
    w'.read path = .ok (y.write c.toNode) := by
  unfold saveWith at h
  split at h
  · cases h
  · split at h
    · cases h
    · next hwrite =>
      cases h
      exact World.read_of_write hwrite

/-- **Configurations survive being saved.**  Take a configuration of 64-bit
numbers that passes validation, any world, and a path to which it is saved. If
the codec returns its document, scalar by scalar, then a configuration is loaded
from the path that has the same layouts under the same names and the same
archive; only the order of the layouts, which means nothing, may differ. The
texts need not be well-formed for this: whether they come back is up to the
codec. -/
theorem loadWith_saveWith {δ : Type} [Database δ] (y : Codec) (c : Config) (w w' : World δ)
    (path : Text) (hvalid : c.validate = .ok ()) (hc : c.Representable) (hy : y.Returns c.toNode)
    (hsave : c.saveWith y w path = (.ok (), w')) :
    ∃ c', loadWith y w' path = .ok c' ∧ c'.layouts.entries.Perm c.layouts.entries ∧
      c'.archive = c.archive := by
  refine ⟨c.sorted, ?_, c.layouts.perm_sorted, rfl⟩
  rw [loadWith, saveWith_eq_ok hsave]
  exact parse_write hvalid hc hy

end Config

/-! ### A misleading configuration -/

/-- Its name, its label and its path are spelled like other things, and its
precision is zero. -/
def misleadingConfig : Config where
  layouts := Layouts.empty.insert "null" (some {
    arity := 1
    numeric := "int"
    precision := some 0
    groups := [{ label := "a: #b" }] })
  archive := { path := "1e3" }

def misleadingDocument : Node := .mapping [
  pair "layouts" (.mapping [
    pair "null" (.mapping [
      pair "arity" (ofInt 1), pair "numeric" (ofText "int"), pair "precision" (ofInt 0),
      pair "groups" (.sequence [.mapping [
        pair "label" (ofText "a: #b"), pair "left" (ofInt 0), pair "right" (ofInt 0)]])])]),
  pair "archive" (.mapping [pair "path" (ofText "1e3"), pair "cache" (ofFlag false)])]

def misleadingText : Text := "layouts:
    \"null\":
        arity: 1
        numeric: int
        precision: 0
        groups:
            - label: 'a: #b'
              left: 0
              right: 0
archive:
    path: \"1e3\"
    cache: false
"

theorem toNode_misleadingConfig : misleadingConfig.toNode = misleadingDocument := by
  have hsorted : misleadingConfig.layouts.entries.Pairwise fun a b => Natural.le a.1 b.1 = true :=
    List.pairwise_singleton _ _
  rw [Config.toNode, Layouts.toNode, List.mergeSort_of_pairwise hsorted]
  rfl

theorem returns_misleadingConfig : Codec.standard.Returns misleadingConfig.toNode := by
  have hwrite : Codec.standard.write misleadingDocument = misleadingText := by
    show misleadingDocument.write = _
    -- Writing is no structural recursion, so its equations are used first.
    simp only [misleadingDocument, write, lines, pairLines, itemLines, rest, pair, ofText, ofInt,
      ofFlag]
    decide +kernel
  rw [toNode_misleadingConfig]
  exact Codec.returns_of_text hwrite (by decide +kernel)

theorem misleadingConfig_survives : misleadingConfig.validate = .ok () ∧
    ∃ w c', misleadingConfig.save {} "config" = (.ok (), w) ∧ Config.load w "config" = .ok c' ∧
      c'.layouts.entries = misleadingConfig.layouts.entries ∧ c'.archive = { path := "1e3" } := by
  have hvalid : misleadingConfig.validate = .ok () := rfl
  have hnumbers : misleadingConfig.Representable := by
    intro name l hl
    cases List.mem_singleton.mp hl
    refine ⟨by decide, by decide, by decide, by decide, by decide, ?_, ?_⟩
    · rintro p ⟨⟩
      decide
    · intro g hg
      cases List.mem_singleton.mp hg
      exact ⟨by decide, by decide⟩
  have hsave : misleadingConfig.save {} "config" =
      (.ok (), ({} : World).setFile ["config"] (Codec.standard.write misleadingConfig.toNode)) :=
    rfl
  obtain ⟨c', hload, hperm, harchive⟩ := Config.loadWith_saveWith .standard misleadingConfig {} _
    "config" hvalid hnumbers returns_misleadingConfig hsave
  exact ⟨hvalid, _, c', hsave, hload, List.perm_singleton.mp hperm, harchive⟩

end PerfReport
