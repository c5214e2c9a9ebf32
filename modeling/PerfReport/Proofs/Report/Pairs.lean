import PerfReport.Proofs.Number.Numeral
import PerfReport.Proofs.Report.Render

/-!
# Pair reports read back

Labels may hold anything, numerals and line ends too, and neither labels nor
values have to fit their columns. A reader that knows the specification need
not look for the labels, though: it knows which bytes come before a numeral, and
a numeral goes as far as its bytes do, since what follows is a blank, a line
end or nothing.

* `ReportSpec.readPairs?`: the reader;
* `ReportSpec.readLabelled?_labelled`, `ReportSpec.readLine?_pairLine`: one
  value and one line are read, whatever follows them;
* `ReportSpec.readLines?_pairText`: so are all lines;
* `Aggregate.readPairs_render`: the exact totals of a raw report.
-/

namespace PerfReport

namespace ReportSpec

/-! ## The reader -/

/-- What follows `start`, if the text begins so. -/
def behind? (start t : Text) : Option Text :=
  if start.isPrefixOf t then some (t.drop start.length) else none

/-- A value begins behind blanks, or behind the notice that its column is too
wide for them. -/
def skipFill? (spec : ReportSpec) (t : Text) : Option Text :=
  if Text.maxWidth < spec.valueColumn then behind? Text.widthNotice t
  else some (t.dropWhile (· == 32))

/-- The value behind a label, and what follows it. -/
def readLabelled? (spec : ReportSpec) (label t : Text) : Option (Int64 × Text) := do
  let t ← behind? (label.padRight spec.labelColumn ++ ": ") t
  let t ← spec.skipFill? t
  let n ← Int64.ofText? (t.takeWhile Text.isNumeralByte)
  return (n, t.dropWhile Text.isNumeralByte)

/-- The values of a group, left and right, and what follows its line. -/
def readLine? (spec : ReportSpec) (g : Group) (t : Text) :
    Option ((Int64 × Int64) × Text) := do
  let (left, t) ← spec.readLabelled? g.shownLeft t
  let t ← behind? "    " t
  let (right, t) ← spec.readLabelled? g.shownRight t
  return ((left, right), t)

/-- One line for every group, and a byte that ends it. -/
def readLines? (spec : ReportSpec) : List Group → Text → Option (List (Int64 × Int64))
  | [], _ => some []
  | g :: gs, t => do
    let (pair, t) ← spec.readLine? g t
    let pairs ← spec.readLines? gs (t.drop 1)
    return pair :: pairs

/-- The values of a pair report, left and right of every group. -/
def readPairs? (spec : ReportSpec) (t : Text) : Option (List (Int64 × Int64)) :=
  spec.readLines? spec.groups t

/-! ## One value -/

/-- No numeral goes on into the text. -/
def EndsNumeral (t : Text) : Prop := ∀ b ∈ t.head?, Text.isNumeralByte b = false

theorem behind?_append (start t : Text) : behind? start (start ++ t) = some t := by
  rw [behind?, if_pos (List.isPrefixOf_iff_prefix.mpr (List.prefix_append start t)),
    List.drop_left]

theorem takeWhile_of_endsNumeral {t : Text} (h : EndsNumeral t) :
    t.takeWhile Text.isNumeralByte = [] ∧ t.dropWhile Text.isNumeralByte = t := by
  cases t with
  | nil => exact ⟨rfl, rfl⟩
  | cons b t =>
    have hb : Text.isNumeralByte b = false := h b rfl
    exact ⟨by rw [List.takeWhile_cons, hb]; rfl, by rw [List.dropWhile_cons, hb]; rfl⟩

/-- A numeral is all that is taken. -/
theorem span_ofInt (n : Int) {rest : Text} (h : EndsNumeral rest) :
    (Text.ofInt n ++ rest).takeWhile Text.isNumeralByte = Text.ofInt n ∧
      (Text.ofInt n ++ rest).dropWhile Text.isNumeralByte = rest := by
  have hall (b : UInt8) (hb : b ∈ Text.ofInt n) := Text.isNumeralByte_of_mem_ofInt hb
  obtain ⟨htake, hdrop⟩ := takeWhile_of_endsNumeral h
  rw [List.takeWhile_append_of_pos hall, List.dropWhile_append_of_pos hall, htake, hdrop,
    List.append_nil]
  exact ⟨rfl, rfl⟩

/-- Numerals do not begin with a blank. -/
theorem dropWhile_blank_ofInt (n : Int) (rest : Text) :
    (Text.ofInt n ++ rest).dropWhile (· == 32) = Text.ofInt n ++ rest := by
  cases ht : Text.ofInt n with
  | nil => exact absurd ht (Text.ofInt_ne_nil n)
  | cons b t =>
    have hb : Text.isNumeralByte b = true :=
      Text.isNumeralByte_of_mem_ofInt (ht ▸ List.mem_cons_self ..)
    have hblank : (b == 32) = false := by
      cases h : b == 32 with
      | false => rfl
      | true =>
        rw [eq_of_beq h] at hb
        cases hb
    rw [List.cons_append, List.dropWhile_cons, hblank]
    rfl

theorem skipFill?_padLeft (spec : ReportSpec) (n : Int) (rest : Text) :
    spec.skipFill? ((Text.ofInt n).padLeft spec.valueColumn ++ rest) =
      some (Text.ofInt n ++ rest) := by
  unfold skipFill? Text.padLeft
  split
  · rw [List.append_assoc, behind?_append]
  · have hfill : ∀ b ∈ Text.filler spec.valueColumn (Text.ofInt n), (b == 32) = true := by
      intro b hb
      rw [List.eq_of_mem_replicate hb]
      rfl
    rw [List.append_assoc, List.dropWhile_append_of_pos hfill, dropWhile_blank_ofInt]

/-- A value is read back, whatever its label is and whatever follows it. -/
theorem readLabelled?_labelled (spec : ReportSpec) (label : Text) (n : Int64) {rest : Text}
    (h : EndsNumeral rest) :
    spec.readLabelled? label (spec.labelled .raw label (.ofInteger n) ++ rest) =
      some (n, rest) := by
  obtain ⟨htake, hdrop⟩ := span_ofInt n.toInt h
  rw [readLabelled?, labelled, Cell.write_ofInteger, List.append_assoc, behind?_append]
  simp only [Option.bind_eq_bind, Option.bind_some, skipFill?_padLeft, htake, hdrop,
    Int64.ofText?_ofInt]
  rfl

/-! ## One line after the other -/

theorem readLine?_pairLine (spec : ReportSpec) (g : Group) (left right : Int64) {rest : Text}
    (h : EndsNumeral rest) :
    spec.readLine? g (spec.pairLine .raw ⟨g, .ofInteger left, .ofInteger right⟩ ++ rest) =
      some ((left, right), rest) := by
  have hgap (t : Text) : EndsNumeral ("    " ++ t) := by
    rintro b ⟨⟩
    rfl
  simp only [pairLine, List.append_assoc, readLine?, Option.bind_eq_bind]
  rw [readLabelled?_labelled spec g.shownLeft left (hgap _), Option.bind_some, behind?_append,
    Option.bind_some, readLabelled?_labelled spec g.shownRight right h]
  rfl

/-- Behind a line there is its end and the rest of the report, or nothing. -/
theorem exists_pairText_cons (spec : ReportSpec) (mode : Mode) (p : Pair) (ps : List Pair) :
    ∃ rest, spec.pairText mode (p :: ps) = spec.pairLine mode p ++ rest ∧
      rest.drop 1 = spec.pairText mode ps ∧ EndsNumeral rest := by
  refine ⟨_, Text.intercalate_cons 10 _ _, ?_, ?_⟩
  · cases ps with
    | nil => rfl
    | cons q qs => exact (Text.intercalate_cons 10 _ _).symm
  · cases ps with
    | nil => nofun
    | cons q qs =>
      rintro b ⟨⟩
      rfl

end ReportSpec

namespace Aggregate

/-- The exact totals of a group, left and right. -/
def exactTotals {α : Type} (agg : Aggregate α) (g : Group) : Int64 × Int64 :=
  (agg.exactTotal g.left, agg.exactTotal g.right)

/-- The induction is on the groups; the text of the later ones is what is left
after a line. -/
theorem readLines?_pairText (agg : Aggregate Float) (spec : ReportSpec) (groups : List Group) :
    spec.readLines? groups (spec.pairText .raw (groups.map agg.exactPair)) =
      some (groups.map agg.exactTotals) := by
  induction groups with
  | nil => rfl
  | cons g gs ih =>
    obtain ⟨rest, htext, hrest, hends⟩ :=
      spec.exists_pairText_cons .raw (agg.exactPair g) (gs.map agg.exactPair)
    rw [List.map_cons, htext, ReportSpec.readLines?, exactPair,
      spec.readLine?_pairLine g _ _ hends]
    simp only [Option.bind_eq_bind, Option.bind_some, hrest, ih]
    rfl

theorem readPairs?_of_render {agg : Aggregate Float} (h : agg.Shaped)
    (hk : agg.kind = .integer) {spec : ReportSpec} (hs : spec.summary = false) {text : Text}
    (ht : agg.render spec .raw = .ok text) :
    spec.readPairs? text = some (spec.groups.map agg.exactTotals) := by
  rw [h.render_raw_integer hk (validate_of_render ht), if_neg (by simp [hs])] at ht
  cases ht
  exact agg.readLines?_pairText spec spec.groups

/-- **Pair reports read back.**  The raw report of an aggregate of whole numbers
in pairs tells the exact totals of all groups to a reader that has nothing but
the specification. So two such aggregates with the same report have the same
total in every column that a group refers to. -/
theorem readPairs_render {agg : Aggregate Float} (h : agg.Shaped) (hk : agg.kind = .integer)
    {spec : ReportSpec} (hs : spec.summary = false) (hv : spec.validate agg.arity = .ok ()) :
    ∃ text, agg.render spec .raw = .ok text ∧
      spec.readPairs? text = some (spec.groups.map agg.exactTotals) ∧
      ∀ agg' : Aggregate Float, agg'.Shaped → agg'.kind = .integer →
        agg'.render spec .raw = .ok text →
          ∀ g ∈ spec.groups, ∀ column, column = g.left ∨ column = g.right →
            agg'.exactTotal column = agg.exactTotal column := by
  obtain ⟨text, htext⟩ := exists_render_raw h hv
  have hread := readPairs?_of_render h hk hs htext
  refine ⟨text, htext, hread, ?_⟩
  intro agg' h' hk' htext' g hg column hcolumn
  have hread' := readPairs?_of_render h' hk' hs htext'
  have hmaps := Option.some.inj (hread'.symm.trans hread)
  have hpair : agg'.exactTotals g = agg.exactTotals g := List.map_inj_left.mp hmaps g hg
  obtain ⟨hleft, hright⟩ := Prod.mk.inj hpair
  rcases hcolumn with rfl | rfl
  · exact hleft
  · exact hright

/-- One row; the first total is no double, the second is the least there is. -/
def extreme : Aggregate Float :=
  ((fresh 2 .integer).readFrom "9007199254740993 -9223372036854775808\n" 0).aggregate

/-- Labels that look like values and lines, in columns that are too narrow for
them. -/
def misleading : ReportSpec where
  groups := [{ label := "7: 1\n", left := 0, right := 1 },
    { leftLabel := " -2", rightLabel := "   ", left := 1, right := 1 }]
  labelWidth := 2
  valueWidth := 3

theorem readPairs_extreme : extreme.kind = .integer ∧
    misleading.validate extreme.arity = .ok () ∧
    ∃ text, extreme.render misleading .raw = .ok text ∧
      (extreme.setFloor true).render misleading .raw = .ok text ∧
      misleading.readPairs? text = some [(9007199254740993, -9223372036854775808),
        (-9223372036854775808, -9223372036854775808)] ∧
      (extreme.setFloor true).exactTotal 1 = extreme.exactTotal 1 := by
  have hshaped : extreme.Shaped := (shaped_fresh 2 .integer).readFrom _ 0
  have hpairs : misleading.summary = false := rfl
  obtain ⟨text, htext, hread, hsame⟩ := readPairs_render hshaped rfl hpairs rfl
  have hfloor : (extreme.setFloor true).render misleading .raw = .ok text :=
    (render_raw_congr rfl rfl rfl misleading).trans htext
  refine ⟨rfl, rfl, text, htext, hfloor, ?_, ?_⟩
  · rw [hread]
    decide +kernel
  · exact hsame _ (hshaped.setFloor true) rfl hfloor _ (List.mem_cons_self ..) 1 (.inr rfl)

end Aggregate

end PerfReport
